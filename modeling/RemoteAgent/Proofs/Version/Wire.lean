import RemoteAgent.Version

/-! # Wire forms of versions

Reading a wire form gives back the three numbers and no tag, whatever bytes follow. So a peer that
has read a whole wire form knows exactly whether the two versions agree.
-/

namespace RemoteAgent.Version

theorem getLsbD_byte (x : BitVec 32) (k i : Nat) :
    ((((x >>> k).setWidth 8).setWidth 32) <<< k).getLsbD i =
      (decide (i < 32 ∧ k ≤ i ∧ i < k + 8) && x.getLsbD i) := by
  simp only [BitVec.getLsbD_shiftLeft, BitVec.getLsbD_setWidth, BitVec.getLsbD_ushiftRight]
  rcases Nat.lt_or_ge i k with hk | hk
  · simp [hk, Nat.not_le.2 hk]
  · rw [Nat.add_sub_of_le hk]
    rcases x.getLsbD i
    · simp
    · simp only [Bool.and_true, ← Bool.decide_and, ← decide_not, decide_eq_decide]
      omega

theorem toBitVec_wordOf (a b c d : UInt8) :
    (wordOf a b c d).toBitVec =
      a.toBitVec.setWidth 32 <<< 24 ||| b.toBitVec.setWidth 32 <<< 16 |||
        c.toBitVec.setWidth 32 <<< 8 ||| d.toBitVec.setWidth 32 := by
  simp only [wordOf, UInt32.toBitVec_or, UInt32.toBitVec_shiftLeft, UInt8.toBitVec_toUInt32]
  rfl

theorem wordOf_bytes (n : UInt32) :
    wordOf (n >>> 24).toUInt8 (n >>> 16).toUInt8 (n >>> 8).toUInt8 n.toUInt8 = n := by
  apply UInt32.eq_of_toBitVec_eq
  apply BitVec.eq_of_getLsbD_eq
  intro i hi
  have h0 := getLsbD_byte n.toBitVec 0 i
  have h8 := getLsbD_byte n.toBitVec 8 i
  have h16 := getLsbD_byte n.toBitVec 16 i
  have h24 := getLsbD_byte n.toBitVec 24 i
  simp only [BitVec.ushiftRight_zero, BitVec.shiftLeft_zero] at h0
  rw [toBitVec_wordOf]
  simp only [BitVec.getLsbD_or]
  rw [show (n >>> 24).toUInt8.toBitVec = (n.toBitVec >>> 24).setWidth 8 from rfl,
    show (n >>> 16).toUInt8.toBitVec = (n.toBitVec >>> 16).setWidth 8 from rfl,
    show (n >>> 8).toUInt8.toBitVec = (n.toBitVec >>> 8).setWidth 8 from rfl,
    show n.toUInt8.toBitVec = n.toBitVec.setWidth 8 from rfl, h0, h8, h16, h24]
  -- Every bit of the word lies in exactly one of the four bytes.
  rcases n.toBitVec.getLsbD i <;> simp
  omega

/-- A byte put in its place in a word shows there and in no other byte. -/
theorem getLsbD_placed (x : BitVec 8) {k m i : Nat} (hi : i < 8) (hk : k ≤ 24)
    (h : m = k ∨ m + 8 ≤ k ∨ k + 8 ≤ m) :
    (x.setWidth 32 <<< m).getLsbD (k + i) = (decide (m = k) && x.getLsbD i) := by
  rw [BitVec.getLsbD_shiftLeft, BitVec.getLsbD_setWidth]
  have hlt : k + i < 32 := by omega
  rcases h with rfl | h | h
  · have hsub : m + i - m = i := by omega
    have hi' : i < 32 := by omega
    simp [hsub, hlt, hi']
  · have hge : 8 ≤ k + i - m := by omega
    have hne : m ≠ k := by omega
    simp [BitVec.getLsbD_of_ge x _ hge, hne]
  · have hlt' : k + i < m := by omega
    have hne : m ≠ k := by omega
    simp [hlt', hne]

theorem getLsbD_wordOf (a b c d : UInt8) {k i : Nat} (hi : i < 8) (hk : k ≤ 24)
    (hmod : k % 8 = 0) :
    (wordOf a b c d).toBitVec.getLsbD (k + i) =
      ((decide (24 = k) && a.toBitVec.getLsbD i) || (decide (16 = k) && b.toBitVec.getLsbD i) ||
        (decide (8 = k) && c.toBitVec.getLsbD i) || (decide (0 = k) && d.toBitVec.getLsbD i)) := by
  have hd := getLsbD_placed d.toBitVec (m := 0) hi hk (by omega)
  rw [BitVec.shiftLeft_zero] at hd
  rw [toBitVec_wordOf]
  simp only [BitVec.getLsbD_or]
  rw [getLsbD_placed a.toBitVec hi hk (by omega), getLsbD_placed b.toBitVec hi hk (by omega),
    getLsbD_placed c.toBitVec hi hk (by omega), hd]

theorem wordBytes_wordOf (a b c d : UInt8) : wordBytes (wordOf a b c d) = [a, b, c, d] := by
  have hbyte : ∀ (k : Nat) {x y : UInt8},
      y.toBitVec = ((wordOf a b c d).toBitVec >>> k).setWidth 8 →
      (∀ i < 8, (wordOf a b c d).toBitVec.getLsbD (k + i) = x.toBitVec.getLsbD i) → y = x := by
    intro k x y hy h
    refine UInt8.eq_of_toBitVec_eq (hy.trans (BitVec.eq_of_getLsbD_eq fun i hi => ?_))
    rw [BitVec.getLsbD_setWidth, BitVec.getLsbD_ushiftRight, h i hi]
    simp [hi]
  have ha : (wordOf a b c d >>> 24).toUInt8 = a :=
    hbyte 24 rfl fun i hi => by simp [getLsbD_wordOf a b c d hi (k := 24)]
  have hb : (wordOf a b c d >>> 16).toUInt8 = b :=
    hbyte 16 rfl fun i hi => by simp [getLsbD_wordOf a b c d hi (k := 16)]
  have hc : (wordOf a b c d >>> 8).toUInt8 = c :=
    hbyte 8 rfl fun i hi => by simp [getLsbD_wordOf a b c d hi (k := 8)]
  have hd : (wordOf a b c d).toUInt8 = d :=
    hbyte 0 rfl fun i hi => by simpa using getLsbD_wordOf a b c d hi (k := 0)
  rw [wordBytes, ha, hb, hc, hd]

@[simp] theorem length_toWire (v : Version) : v.toWire.length = wireSize := rfl

theorem toWire_ne_nil (v : Version) : v.toWire ≠ [] := by
  intro h
  have := congrArg List.length h
  simp [wireSize] at this

/-- A version as its peer sees it: without the tag. -/
def untagged (v : Version) : Version :=
  { v with tag := none }

theorem ofWire_toWire_append (v : Version) (rest : List UInt8) :
    ofWire (v.toWire ++ rest) = .ok v.untagged := by
  simp only [toWire, wordBytes, List.cons_append, List.nil_append, ofWire, wordOf_bytes, untagged]

theorem ofWire_toWire (v : Version) : ofWire v.toWire = .ok v.untagged := by
  have h := ofWire_toWire_append v []
  rwa [List.append_nil] at h

/-- Whole bytes that read as a version are its wire form. -/
theorem toWire_of_ofWire {v : Version} {bytes : List UInt8} (h : ofWire bytes = .ok v)
    (hlength : bytes.length = wireSize) : v.toWire = bytes := by
  unfold ofWire at h
  split at h
  · cases h
    rename_i rest
    obtain rfl : rest = [] := by simpa [wireSize] using hlength
    simp only [toWire, wordBytes_wordOf, List.cons_append, List.nil_append]
  · cases h

/-- Every twelve bytes are the wire form of a version. -/
theorem exists_ofWire {bytes : List UInt8} (h : wireSize ≤ bytes.length) :
    ∃ v, ofWire bytes = .ok v ∧ v.tag = none ∧ v.toWire = bytes.take wireSize := by
  unfold ofWire
  split
  · refine ⟨_, rfl, rfl, ?_⟩
    simp only [toWire, wordBytes_wordOf]
    rfl
  next hne =>
    -- The pattern of a wire form is missed only by a list with fewer bytes.
    rcases bytes with _ | ⟨a, _ | ⟨b, _ | ⟨c, _ | ⟨d, _ | ⟨e, _ | ⟨f, _ | ⟨g, _ | ⟨m, _ | ⟨i,
      _ | ⟨j, _ | ⟨k, _ | ⟨l, rest⟩⟩⟩⟩⟩⟩⟩⟩⟩⟩⟩⟩
    case cons.cons.cons.cons.cons.cons.cons.cons.cons.cons.cons.cons =>
      exact absurd rfl (hne a b c d e f g m i j k l rest)
    all_goals simp [wireSize] at h

theorem ofWire_of_lt {bytes : List UInt8} (h : bytes.length < wireSize) :
    ofWire bytes = .error (.truncated bytes.length wireSize) := by
  unfold ofWire
  split
  · simp [wireSize] at h
    omega
  · rfl

/-- Two versions agree when their numbers do; tags do not matter. -/
theorem isCompatibleWith_iff (v w : Version) :
    v.isCompatibleWith w = true ↔ v.untagged = w.untagged := by
  simp [isCompatibleWith, untagged, and_assoc]

theorem isCompatibleWith_untagged (v w : Version) :
    v.untagged.isCompatibleWith w = v.isCompatibleWith w := rfl

theorem isCompatibleWith_comm (v w : Version) :
    v.isCompatibleWith w = w.isCompatibleWith v := by
  rw [Bool.eq_iff_iff, isCompatibleWith_iff, isCompatibleWith_iff, eq_comm]

variable {v w : Version}

theorem toWire_congr (h : v.isCompatibleWith w = true) : v.toWire = w.toWire := by
  obtain ⟨⟨hmajor, hminor⟩, hpatch⟩ := by simpa [isCompatibleWith] using h
  rw [toWire, toWire, hmajor, hminor, hpatch]

/-- Comparing versions does not depend on which of the two has come over the wire. -/
theorem check_untagged (h : v.isCompatibleWith w = true) :
    v.check w.untagged = .compatible := by
  rw [isCompatibleWith_comm] at h
  exact if_pos h

theorem check_untagged_of_incompatible (h : v.isCompatibleWith w = false) :
    v.check w.untagged = .incompatible w.untagged := by
  rw [isCompatibleWith_comm] at h
  exact if_neg (by rw [isCompatibleWith_untagged, h]; decide)

end RemoteAgent.Version
