import RemoteAgent.Text.Utf8

/-! # Decoding what was encoded

The decoder reads the one to four bytes of a character and is between characters again, so an
encoded text decodes to itself.
-/

namespace RemoteAgent.Text

namespace Decoder

/-! The ranges of the first two bytes keep out characters that need fewer bytes, surrogates, and
what lies beyond the last character. -/

theorem first_single : ∀ n < 0x80, first (UInt8.ofNat n) = ([some (Char.ofNat n)], .start) := by
  decide

theorem first_lead₂ : ∀ n < 0x20, 2 ≤ n →
    first (UInt8.ofNat (n + 0xC0)) = ([], .within n 0x80 0xBF 0) := by
  decide

theorem first_lead₃ : ∀ n < 0x10, first (UInt8.ofNat (n + 0xE0)) =
    ([], .within n (if n = 0 then 0xA0 else 0x80) (if n = 13 then 0x9F else 0xBF) 1) := by
  decide

theorem first_lead₄ : ∀ n < 5, first (UInt8.ofNat (n + 0xF0)) =
    ([], .within n (if n = 0 then 0x90 else 0x80) (if n = 4 then 0x8F else 0xBF) 2) := by
  decide

theorem toNat_continuation : ∀ n < 0x40, (UInt8.ofNat (n + 0x80) &&& 0x3F).toNat = n := by
  decide

theorem feed_last {value n : Nat} {low high : UInt8} (hn : n < 0x40)
    (hlow : low ≤ UInt8.ofNat (n + 0x80)) (hhigh : UInt8.ofNat (n + 0x80) ≤ high) :
    feed (UInt8.ofNat (n + 0x80)) (.within value low high 0) =
      ([some (Char.ofNat (value * 64 + n))], .start) := by
  simp only [feed, hlow, hhigh, and_self, if_true, toNat_continuation n hn]

theorem feed_more {value n more : Nat} {low high : UInt8} (hn : n < 0x40)
    (hlow : low ≤ UInt8.ofNat (n + 0x80)) (hhigh : UInt8.ofNat (n + 0x80) ≤ high) :
    feed (UInt8.ofNat (n + 0x80)) (.within value low high (more + 1)) =
      ([], .within (value * 64 + n) 0x80 0xBF more) := by
  simp only [feed, hlow, hhigh, and_self, if_true, toNat_continuation n hn]

theorem continuation_le : ∀ n < 0x40,
    0x80 ≤ UInt8.ofNat (n + 0x80) ∧ UInt8.ofNat (n + 0x80) ≤ 0xBF := by
  decide

theorem le_continuation₃ : ∀ n < 0x40,
    (0x20 ≤ n → 0xA0 ≤ UInt8.ofNat (n + 0x80)) ∧ (n < 0x20 → UInt8.ofNat (n + 0x80) ≤ 0x9F) := by
  decide

theorem le_continuation₄ : ∀ n < 0x40,
    (0x10 ≤ n → 0x90 ≤ UInt8.ofNat (n + 0x80)) ∧ (n < 0x10 → UInt8.ofNat (n + 0x80) ≤ 0x8F) := by
  decide

theorem run_cons (done : List (Option Char)) (d : Decoder) (b : UInt8) (bytes : List UInt8) :
    d.run done (b :: bytes) = (d.feed b).2.run ((d.feed b).1.reverse ++ done) bytes := rfl

theorem feed_start (b : UInt8) : start.feed b = first b := rfl

section Characters

variable {v : Nat} (done : List (Option Char)) (bytes : List UInt8)

theorem run_bytes₁ (h : v < 0x80) :
    start.run done (UInt8.ofNat v :: bytes) = start.run (some (Char.ofNat v) :: done) bytes := by
  rw [run_cons, feed_start, first_single v h]
  rfl

theorem run_bytes₂ (hlow : 0x80 ≤ v) (hhigh : v < 0x800) :
    start.run done (UInt8.ofNat (v / 64 % 0x20 + 0xC0) :: UInt8.ofNat (v % 0x40 + 0x80) :: bytes) =
      start.run (some (Char.ofNat v) :: done) bytes := by
  have hlast : v % 0x40 < 0x40 := Nat.mod_lt _ (by decide)
  have hv : v / 64 % 0x20 * 64 + v % 0x40 = v := by omega
  simp only [run_cons, feed_start]
  rw [first_lead₂ _ (by omega) (by omega),
    feed_last hlast (continuation_le _ hlast).1 (continuation_le _ hlast).2, hv]
  rfl

theorem run_bytes₃ (hlow : 0x800 ≤ v) (hhigh : v < 0x10000)
    (hvalid : v < 0xD800 ∨ 0xDFFF < v) :
    start.run done (UInt8.ofNat (v / 4096 % 0x10 + 0xE0) ::
        UInt8.ofNat (v / 64 % 0x40 + 0x80) :: UInt8.ofNat (v % 0x40 + 0x80) :: bytes) =
      start.run (some (Char.ofNat v) :: done) bytes := by
  have hlast : v % 0x40 < 0x40 := Nat.mod_lt _ (by decide)
  have hmiddle : v / 64 % 0x40 < 0x40 := Nat.mod_lt _ (by decide)
  have hv : (v / 4096 % 0x10 * 64 + v / 64 % 0x40) * 64 + v % 0x40 = v := by omega
  simp only [run_cons, feed_start]
  rw [first_lead₃ _ (by omega), feed_more hmiddle,
    feed_last hlast (continuation_le _ hlast).1 (continuation_le _ hlast).2, hv]
  · rfl
  · split
    · exact (le_continuation₃ _ hmiddle).1 (by omega)
    · exact (continuation_le _ hmiddle).1
  · split
    · exact (le_continuation₃ _ hmiddle).2 (by omega)
    · exact (continuation_le _ hmiddle).2

theorem run_bytes₄ (hlow : 0x10000 ≤ v) (hhigh : v < 0x110000) :
    start.run done (UInt8.ofNat (v / 262144 % 0x08 + 0xF0) ::
        UInt8.ofNat (v / 4096 % 0x40 + 0x80) :: UInt8.ofNat (v / 64 % 0x40 + 0x80) ::
        UInt8.ofNat (v % 0x40 + 0x80) :: bytes) =
      start.run (some (Char.ofNat v) :: done) bytes := by
  have hlast : v % 0x40 < 0x40 := Nat.mod_lt _ (by decide)
  have hmiddle : v / 64 % 0x40 < 0x40 := Nat.mod_lt _ (by decide)
  have hsecond : v / 4096 % 0x40 < 0x40 := Nat.mod_lt _ (by decide)
  have hv : ((v / 262144 % 0x08 * 64 + v / 4096 % 0x40) * 64 + v / 64 % 0x40) * 64 +
      v % 0x40 = v := by omega
  simp only [run_cons, feed_start]
  rw [first_lead₄ _ (by omega), feed_more hsecond,
    feed_more hmiddle (continuation_le _ hmiddle).1 (continuation_le _ hmiddle).2,
    feed_last hlast (continuation_le _ hlast).1 (continuation_le _ hlast).2, hv]
  · rfl
  · split
    · exact (le_continuation₄ _ hsecond).1 (by omega)
    · exact (continuation_le _ hsecond).1
  · split
    · exact (le_continuation₄ _ hsecond).2 (by omega)
    · exact (continuation_le _ hsecond).2

/-- The decoder reads a character and is between characters again. -/
theorem run_utf8EncodeChar (c : Char) :
    start.run done (String.utf8EncodeChar c ++ bytes) = start.run (some c :: done) bytes := by
  have hc : Char.ofNat c.val.toNat = c := Char.ofNat_toNat c
  have hvalid : c.val.toNat < 0xD800 ∨ 0xDFFF < c.val.toNat ∧ c.val.toNat < 0x110000 := c.valid
  conv => rhs; rw [← hc]
  unfold String.utf8EncodeChar
  dsimp only
  split
  · exact run_bytes₁ done bytes (by omega)
  · split
    · exact run_bytes₂ done bytes (by omega) (by omega)
    · split
      · exact run_bytes₃ done bytes (by omega) (by omega) (by omega)
      · exact run_bytes₄ done bytes (by omega) (by omega)

theorem run_flatMap_utf8EncodeChar (cs : List Char) :
    start.run done (cs.flatMap String.utf8EncodeChar) = done.reverse ++ cs.map some := by
  induction cs generalizing done with
  | nil => exact (List.append_nil _).symm
  | cons c cs ih =>
    rw [List.flatMap_cons, run_utf8EncodeChar, ih, List.reverse_cons, List.append_assoc]
    rfl

end Characters

end Decoder

theorem encode_eq (s : String) : encode s = s.toList.flatMap String.utf8EncodeChar := by
  obtain ⟨cs, rfl⟩ : ∃ cs, s = String.ofList cs := ⟨s.toList, String.ofList_toList.symm⟩
  rw [encode, String.toUTF8_eq_toByteArray, String.toByteArray_ofList, String.toList_ofList,
    List.utf8Encode, List.data_toByteArray]

theorem decodeLossy_encode (s : String) : decodeLossy (encode s) = s := by
  rw [decodeLossy, decodeParts, encode_eq, Decoder.run_flatMap_utf8EncodeChar]
  simp [Function.comp_def]

end RemoteAgent.Text
