import Mathlib.Algebra.Group.Nat.Defs
import RemoteAgent.Gzip.Member

/-! # Compressed files that are not compressed

A byte string can be put into a compressed file as it is, in a stored block if it is not too long,
and comes out of it again.
-/

namespace RemoteAgent.Gzip

/-- A number in so many bytes, lowest byte first. -/
def littleEndian : Nat → Nat → List UInt8
  | 0, _ => []
  | k + 1, n => UInt8.ofNat n :: littleEndian k (n / 256)

theorem length_littleEndian (k n : Nat) : (littleEndian k n).length = k := by
  induction k generalizing n with
  | zero => rfl
  | succ k ih => rw [littleEndian, List.length_cons, ih]

theorem byteAt?_eq (bytes : ByteArray) (i : Nat) : byteAt? bytes i = bytes.data.toList[i]? := by
  unfold byteAt?
  split
  next h => simp [ByteArray.getElem_eq_getElem_data]
  next h => simpa using h

variable {bytes : ByteArray} {before after : List UInt8} {i n : Nat}

theorem littleEndian?_eq (k : Nat)
    (h : bytes.data.toList = before ++ (littleEndian k n ++ after)) :
    littleEndian? bytes k before.length = some (n % 256 ^ k) := by
  induction k generalizing before n with
  | zero => simp [littleEndian?, Nat.mod_one]
  | succ k ih =>
    have hbyte : byteAt? bytes before.length = some (UInt8.ofNat n) := by
      rw [byteAt?_eq, h]
      simp [littleEndian]
    have hrest : littleEndian? bytes k (before.length + 1) = some (n / 256 % 256 ^ k) := by
      have heq : bytes.data.toList =
          (before ++ [UInt8.ofNat n]) ++ (littleEndian k (n / 256) ++ after) := by
        rw [h]
        simp [littleEndian]
      simpa using ih heq
    rw [littleEndian?, hbyte, hrest, Nat.pow_succ', Nat.mod_mul]
    simp

namespace BitReader

theorem bits?_add {m n low high : Nat} {r r₁ r₂ : BitReader} (hlow : r.bits? m = some (low, r₁))
    (hhigh : r₁.bits? n = some (high, r₂)) :
    r.bits? (m + n) = some (low + 2 ^ m * high, r₂) := by
  induction m generalizing r low with
  | zero =>
    cases hlow
    simpa using hhigh
  | succ m ih =>
    obtain ⟨⟨bit, r'⟩, hbit, hrest⟩ := Option.bind_eq_some_iff.1 hlow
    obtain ⟨⟨low', r''⟩, hlow', heq⟩ := Option.bind_eq_some_iff.1 hrest
    cases heq
    have hrest' := ih hlow'
    have hvalue : bit + 2 * (low' + 2 ^ m * high) = bit + 2 * low' + 2 ^ (m + 1) * high := by
      rw [Nat.mul_add, Nat.pow_succ', Nat.mul_assoc, Nat.add_assoc]
    rw [Nat.succ_add, bits?, hbit]
    simp only [Option.bind_eq_bind, Option.bind_some, hrest', hvalue]
    rfl

theorem bit?_eq {b : UInt8} (h : bytes.data.toList[i]? = some b) {k : Nat} (hk : k < 8) :
    bit? ⟨bytes, 8 * i + k⟩ = some (b.toNat / 2 ^ k % 2, ⟨bytes, 8 * i + (k + 1)⟩) := by
  obtain ⟨hi, rfl⟩ := List.getElem?_eq_some_iff.1 h
  have hindex : (8 * i + k) / 8 = i := by omega
  have hoffset : (8 * i + k) % 8 = k := by omega
  have hsize : i < bytes.size := by simpa using hi
  simp only [bit?, hindex, hoffset, dif_pos hsize, Nat.shiftRight_eq_div_pow]
  rfl

/-- A byte is read from its lowest bit up. -/
theorem bits?_within {b : UInt8} (h : bytes.data.toList[i]? = some b) {j k : Nat} (hk : j + k ≤ 8) :
    bits? k ⟨bytes, 8 * i + j⟩ = some (b.toNat / 2 ^ j % 2 ^ k, ⟨bytes, 8 * i + (j + k)⟩) := by
  induction k generalizing j with
  | zero => simp [bits?, Nat.mod_one]
  | succ k ih =>
    have hbit := @bit?_eq _ _ _ h j (by omega)
    have hrest := @ih (j + 1) (by omega)
    have hvalue : b.toNat / 2 ^ j % 2 ^ (k + 1) =
        b.toNat / 2 ^ j % 2 + 2 * (b.toNat / 2 ^ (j + 1) % 2 ^ k) := by
      rw [Nat.pow_succ', Nat.mod_mul, Nat.div_div_eq_div_mul, ← Nat.pow_succ]
    rw [Nat.add_right_comm, Nat.add_assoc] at hrest
    rw [bits?, hbit, hvalue]
    simp only [Option.bind_eq_bind, Option.bind_some, hrest, Option.pure_def]

theorem bits?_byte {b : UInt8} (h : bytes.data.toList[i]? = some b) :
    bits? 8 ⟨bytes, 8 * i⟩ = some (b.toNat, ⟨bytes, 8 * (i + 1)⟩) := by
  have hbits := @bits?_within _ _ _ h 0 8 (Nat.le_refl 8)
  have hvalue : b.toNat / 2 ^ 0 % 2 ^ 8 = b.toNat := by
    rw [Nat.pow_zero, Nat.div_one]
    exact Nat.mod_eq_of_lt b.toNat_lt
  rwa [hvalue] at hbits

theorem bits?_littleEndian (k : Nat)
    (h : bytes.data.toList = before ++ (littleEndian k n ++ after)) :
    bits? (8 * k) ⟨bytes, 8 * before.length⟩ =
      some (n % 256 ^ k, ⟨bytes, 8 * (before.length + k)⟩) := by
  induction k generalizing before n with
  | zero => simp [bits?, Nat.mod_one]
  | succ k ih =>
    have hbyte : bytes.data.toList[before.length]? = some (UInt8.ofNat n) := by
      rw [h]
      simp [littleEndian]
    have heq : bytes.data.toList =
        (before ++ [UInt8.ofNat n]) ++ (littleEndian k (n / 256) ++ after) := by
      rw [h]
      simp [littleEndian]
    have hrest := ih heq
    rw [List.length_append, List.length_singleton] at hrest
    have hall := bits?_add (bits?_byte hbyte) hrest
    have hmod : n % 256 ^ (k + 1) = n % 256 + 256 * (n / 256 % 256 ^ k) := by
      rw [Nat.pow_succ', Nat.mod_mul]
    rw [Nat.mul_succ, Nat.add_comm (8 * k) 8, hall, hmod]
    simp [Nat.add_assoc, Nat.add_comm 1 k]

end BitReader

section Stored

/-- What stands before the content: a header without fields, and that of the one block. -/
def storedHeader (length : Nat) : List UInt8 :=
  [0x1F, 0x8B, 8, 0, 0, 0, 0, 0, 0, 0xFF] ++ ([1] ++ (littleEndian 2 length ++
    littleEndian 2 (0xFFFF - length)))

/-- A compressed file that holds a byte string as it is. -/
def stored (content : List UInt8) : ByteArray :=
  ⟨(storedHeader content.length ++ (content ++
    (littleEndian 4 (crc32 ⟨content.toArray⟩).toNat ++ littleEndian 4 content.length))).toArray⟩

variable {content : List UInt8}

theorem length_storedHeader (length : Nat) : (storedHeader length).length = 15 := by
  simp [storedHeader, length_littleEndian]

theorem toList_stored (content : List UInt8) :
    (stored content).data.toList = storedHeader content.length ++ (content ++
      (littleEndian 4 (crc32 ⟨content.toArray⟩).toNat ++ littleEndian 4 content.length)) := by
  simp [stored]

theorem size_stored (content : List UInt8) : (stored content).size = content.length + 23 := by
  rw [← ByteArray.size_data, ← Array.length_toList, toList_stored]
  simp only [List.length_append, length_storedHeader, length_littleEndian]
  omega

theorem afterHeader?_stored (content : List UInt8) : afterHeader? (stored content) = some 10 := by
  have hbyte : ∀ i b, [0x1F, 0x8B, 8, 0, 0, 0, 0, 0, 0, 0xFF][i]? = some b →
      byteAt? (stored content) i = some b := by
    intro i b hb
    rw [byteAt?_eq, toList_stored, storedHeader]
    simp only [List.append_assoc]
    rw [List.getElem?_append_left (List.getElem?_eq_some_iff.1 hb).1, hb]
  have hsize := size_stored content
  simp [afterHeader?, hbyte 0 0x1F rfl, hbyte 1 0x8B rfl, hbyte 2 8 rfl, hbyte 3 0 rfl]
  omega

theorem extract_stored (content : List UInt8) :
    (stored content).extract 15 (15 + content.length) = ⟨content.toArray⟩ := by
  apply ByteArray.ext
  rw [← Array.toList_inj, ByteArray.data_extract, Array.toList_extract, toList_stored]
  simp [List.extract, length_storedHeader]

open BitReader in
theorem block_stored (h : content.length < 0x10000) (output : ByteArray) :
    Inflating.block ⟨⟨stored content, 80⟩, output⟩ =
      (true, ⟨⟨stored content, 8 * (15 + content.length)⟩, output ++ ⟨content.toArray⟩⟩, none) := by
  have hbegin : (stored content).data.toList[10]? = some 1 := by
    rw [toList_stored, storedHeader]
    rfl
  have hheader : bits? 3 ⟨stored content, 80⟩ = some (1, ⟨stored content, 83⟩) :=
    @bits?_within _ _ _ hbegin 0 3 (by decide)
  have hlength : bits? 16 ⟨stored content, 88⟩ =
      some (content.length, ⟨stored content, 104⟩) := by
    have heq : (stored content).data.toList =
        [0x1F, 0x8B, 8, 0, 0, 0, 0, 0, 0, 0xFF, 1] ++ (littleEndian 2 content.length ++
          (littleEndian 2 (0xFFFF - content.length) ++ (content ++
            (littleEndian 4 (crc32 ⟨content.toArray⟩).toNat ++
              littleEndian 4 content.length)))) := by
      rw [toList_stored, storedHeader]
      simp
    have hbits := bits?_littleEndian 2 heq
    have hvalue : content.length % 256 ^ 2 = content.length := Nat.mod_eq_of_lt h
    rwa [hvalue] at hbits
  have hcomplement : bits? 16 ⟨stored content, 104⟩ =
      some (0xFFFF - content.length, ⟨stored content, 120⟩) := by
    have heq : (stored content).data.toList =
        ([0x1F, 0x8B, 8, 0, 0, 0, 0, 0, 0, 0xFF, 1] ++ littleEndian 2 content.length) ++
          (littleEndian 2 (0xFFFF - content.length) ++ (content ++
            (littleEndian 4 (crc32 ⟨content.toArray⟩).toNat ++
              littleEndian 4 content.length))) := by
      rw [toList_stored, storedHeader]
      simp
    have hbits := bits?_littleEndian 2 heq
    have hvalue : (0xFFFF - content.length) % 256 ^ 2 = 0xFFFF - content.length :=
      Nat.mod_eq_of_lt (Nat.lt_of_le_of_lt (Nat.sub_le _ _) (by decide))
    rwa [hvalue, List.length_append, length_littleEndian] at hbits
  have hstop : min (15 + content.length) (stored content).size = 15 + content.length := by
    rw [size_stored]
    omega
  have hsum : content.length + (0xFFFF - content.length) = 0xFFFF := by omega
  simp [Inflating.block, hheader, Inflating.stored, align, hlength, hcomplement, byteIndex, hstop,
    hsum, extract_stored]

theorem inflate_stored (h : content.length < 0x10000) :
    inflate (stored content) 10 = (⟨content.toArray⟩, .ok (15 + content.length)) := by
  have hempty : ByteArray.empty ++ ⟨content.toArray⟩ = (⟨content.toArray⟩ : ByteArray) :=
    ByteArray.empty_append
  have hindex : (8 * (15 + content.length) + 7) / 8 * 8 / 8 = 15 + content.length := by omega
  simp only [inflate, Inflating.blocks, Nat.reduceMul, block_stored h, hempty, BitReader.align,
    BitReader.byteIndex, hindex]

theorem trailerFits_stored (content : List UInt8) :
    trailerFits (stored content) ⟨content.toArray⟩ (15 + content.length) = true := by
  have hcheck := @littleEndian?_eq (stored content) (storedHeader content.length ++ content)
    (littleEndian 4 content.length) (crc32 ⟨content.toArray⟩).toNat 4 (by simp [toList_stored])
  have hsize := @littleEndian?_eq (stored content) (storedHeader content.length ++ content ++
    littleEndian 4 (crc32 ⟨content.toArray⟩).toNat) [] content.length 4 (by simp [toList_stored])
  simp only [List.length_append, length_storedHeader, length_littleEndian] at hcheck hsize
  have hlength : (⟨content.toArray⟩ : ByteArray).size = content.length := rfl
  simp [trailerFits, hcheck, hsize, hlength]

/-- What was put in comes out again, and the trailer fits. -/
theorem decompress_stored (h : content.length < 0x10000) :
    decompress (stored content) = ⟨⟨content.toArray⟩, true⟩ := by
  simp only [decompress, afterHeader?_stored, inflate_stored h, trailerFits_stored]

end Stored

end RemoteAgent.Gzip
