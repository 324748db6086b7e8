import Mathlib.Data.List.Basic
import RemoteAgent.Text.Utf8

/-! # Decoding line by line

No character goes on over a byte below 0x80, whatever stands before it. So a byte string may be cut
after its line feeds and decoded line by line, malformed or not. Its decoding has at most three
bytes for each of its own.
-/

namespace RemoteAgent.Text

namespace Decoder

/-- Between characters, or inside one that goes on with continuation bytes only. -/
inductive IsProper : Decoder → Prop where

  | start : IsProper .start

  | within {value more : Nat} {low high : UInt8} : 0x80 ≤ low →
      IsProper (.within value low high more)

variable {d : Decoder} {b : UInt8}

theorem isProper_first (b : UInt8) : (first b).2.IsProper := by
  unfold first
  dsimp only
  repeat' split
  all_goals first | exact .start | exact .within (by decide)

theorem IsProper.feed (h : d.IsProper) (b : UInt8) : (d.feed b).2.IsProper := by
  cases h with
  | start => exact isProper_first b
  | @within value more low high hlow =>
    by_cases hin : low ≤ b ∧ b ≤ high
    · cases more with
      | zero => simpa only [Decoder.feed, if_pos hin] using .start
      | succ more =>
        simpa only [Decoder.feed, if_pos hin] using .within (UInt8.le_refl 0x80)
    · simpa only [Decoder.feed, if_neg hin] using isProper_first b

/-- A byte below 0x80 is a character of its own, and ends what was begun before it. -/
theorem IsProper.feed_ascii (h : d.IsProper) (hb : b < 0x80) : (d.feed b).2 = .start := by
  have hfirst : (first b).2 = .start := by
    unfold first
    rw [if_pos hb]
  cases h with
  | start => exact hfirst
  | @within value more low high hlow =>
    have hout : ¬ (low ≤ b ∧ b ≤ high) := fun hin =>
      UInt8.lt_irrefl _ (UInt8.lt_of_le_of_lt (UInt8.le_trans hlow hin.1) hb)
    simpa only [Decoder.feed, if_neg hout] using hfirst

theorem run_done (done : List (Option Char)) (d : Decoder) (bytes : List UInt8) :
    d.run done bytes = done.reverse ++ d.run [] bytes := by
  induction bytes generalizing done d with
  | nil => simp [run]
  | cons b bytes ih =>
    rw [run, run, ih, ih ((d.feed b).1.reverse ++ [])]
    simp

/-- After a byte below 0x80 the decoder starts anew. -/
theorem IsProper.run_append (h : d.IsProper) (hb : b < 0x80) (bytes rest : List UInt8) :
    d.run [] (bytes ++ b :: rest) = d.run [] (bytes ++ [b]) ++ run [] .start rest := by
  induction bytes generalizing d with
  | nil =>
    rw [List.nil_append, List.nil_append, run, run, h.feed_ascii hb, run_done, run]
    simp [Decoder.finish]
  | cons c bytes ih =>
    rw [List.cons_append, List.cons_append, run, run, run_done _ _ (bytes ++ b :: rest),
      run_done _ _ (bytes ++ [b]), ih (h.feed c), List.append_assoc]

end Decoder

/-- The text of decoded parts. -/
def ofParts (parts : List (Option Char)) : String :=
  String.ofList (parts.map (·.getD '\ufffd'))

theorem ofParts_append (parts parts' : List (Option Char)) :
    ofParts (parts ++ parts') = ofParts parts ++ ofParts parts' := by
  rw [ofParts, List.map_append, String.ofList_append]
  rfl

theorem decodeLossy_eq (bytes : List UInt8) :
    decodeLossy bytes = ofParts (Decoder.run [] .start bytes) := rfl

theorem decodeLossy_append {b : UInt8} (hb : b < 0x80) (bytes rest : List UInt8) :
    decodeLossy (bytes ++ b :: rest) = decodeLossy (bytes ++ [b]) ++ decodeLossy rest := by
  rw [decodeLossy_eq, Decoder.IsProper.start.run_append hb, ofParts_append]
  rfl

section Size

@[simp] theorem size_ofParts_nil : (ofParts []).utf8ByteSize = 0 := rfl

@[simp] theorem size_ofParts_cons (part : Option Char) (parts : List (Option Char)) :
    (ofParts (part :: parts)).utf8ByteSize =
      (part.getD '\ufffd').utf8Size + (ofParts parts).utf8ByteSize := by
  rw [← List.singleton_append, ofParts_append, String.utf8ByteSize_append]
  simp [ofParts]

theorem size_replacement : ('\ufffd' : Char).utf8Size = 3 := by decide

namespace Decoder

/-- The bytes that a decoder has read of a character that is not complete count as one. -/
def begun : Decoder → Nat
  | .start => 0
  | .within .. => 1

@[simp] theorem begun_start : begun .start = 0 := rfl

@[simp] theorem begun_within (value more : Nat) (low high : UInt8) :
    begun (.within value low high more) = 1 := rfl

theorem size_first_le (b : UInt8) :
    (ofParts (first b).1).utf8ByteSize + 3 * (first b).2.begun ≤ 3 := by
  have hsingle : ∀ n < 0x80, (Char.ofNat n).utf8Size = 1 := by decide
  by_cases hb : b < 0x80
  · have hfirst : first b = ([some (Char.ofNat b.toNat)], .start) := by
      unfold first
      rw [if_pos hb]
    simp [hfirst, hsingle b.toNat hb]
  · unfold first
    rw [if_neg hb]
    dsimp only
    repeat' split
    all_goals simp [size_replacement]

theorem size_feed_le (b : UInt8) (d : Decoder) :
    (ofParts (d.feed b).1).utf8ByteSize + 3 * (d.feed b).2.begun ≤ 3 * d.begun + 3 := by
  cases d with
  | start => exact size_first_le b
  | within value low high more =>
    by_cases hin : low ≤ b ∧ b ≤ high
    · cases more with
      | zero =>
        have hsize := Char.utf8Size_le_four (Char.ofNat (value * 64 + (b &&& 0x3F).toNat))
        simp only [feed, if_pos hin, size_ofParts_cons, size_ofParts_nil, Option.getD_some,
          begun_start, begun_within]
        omega
      | succ more => simp [feed, if_pos hin]
    · have hfirst := size_first_le b
      simp only [feed, if_neg hin, size_ofParts_cons, Option.getD_none, size_replacement,
        begun_within]
      omega

theorem size_run_le (d : Decoder) (bytes : List UInt8) :
    (ofParts (d.run [] bytes)).utf8ByteSize ≤ 3 * d.begun + 3 * bytes.length := by
  induction bytes generalizing d with
  | nil => cases d <;> simp [run, finish, size_replacement]
  | cons b bytes ih =>
    have hfeed := size_feed_le b d
    have hrest := ih (d.feed b).2
    rw [run, run_done, ofParts_append, String.utf8ByteSize_append, List.append_nil,
      List.reverse_reverse, List.length_cons]
    omega

end Decoder

theorem size_decodeLossy_le (bytes : List UInt8) :
    (decodeLossy bytes).utf8ByteSize ≤ 3 * bytes.length := by
  simpa [decodeLossy_eq] using Decoder.size_run_le .start bytes

end Size

section Lines

/-- The lines of a byte string, each with the line feed that ends it; the last may have none. -/
def byteLines : List UInt8 → List (List UInt8)
  | [] => []
  | b :: bytes =>
    if b = 10 then [10] :: byteLines bytes
    else
      match byteLines bytes with
      | [] => [[b]]
      | line :: lines => (b :: line) :: lines

variable {line bytes : List UInt8}

theorem byteLines_line (h : 10 ∉ line) (bytes : List UInt8) :
    byteLines (line ++ 10 :: bytes) = (line ++ [10]) :: byteLines bytes := by
  induction line with
  | nil => simp [byteLines]
  | cons b line ih =>
    obtain ⟨hb, hline⟩ := List.ne_and_not_mem_of_not_mem_cons h
    rw [List.cons_append, byteLines, if_neg (Ne.symm hb), ih hline]
    rfl

theorem byteLines_last (h : 10 ∉ line) : byteLines line = if line = [] then [] else [line] := by
  induction line with
  | nil => rfl
  | cons b line ih =>
    obtain ⟨hb, hline⟩ := List.ne_and_not_mem_of_not_mem_cons h
    rw [byteLines, if_neg (Ne.symm hb), ih hline]
    by_cases hnil : line = [] <;> simp [hnil]

/-- These lines make up a byte string. -/
inductive AreLines : List (List UInt8) → List UInt8 → Prop where

  | nil : AreLines [] []

  | last {line : List UInt8} : line ≠ [] → 10 ∉ line → AreLines [line] line

  | cons {line bytes : List UInt8} {lines : List (List UInt8)} : 10 ∉ line →
      AreLines lines bytes → AreLines ((line ++ [10]) :: lines) (line ++ 10 :: bytes)

theorem areLines_byteLines (bytes : List UInt8) : AreLines (byteLines bytes) bytes := by
  induction bytes with
  | nil => exact .nil
  | cons b bytes ih =>
    by_cases hb : b = 10
    · subst hb
      exact @AreLines.cons [] _ _ nofun ih
    · rw [byteLines, if_neg hb]
      generalize byteLines bytes = lines at ih
      cases ih with
      | nil => exact .last (by simp) (by simpa using Ne.symm hb)
      | last hne hline => exact .last (by simp) (by simpa [hline] using Ne.symm hb)
      | @cons line _ _ hline hlines =>
        have hbegun : 10 ∉ b :: line := by simpa [hline] using Ne.symm hb
        exact .cons hbegun hlines

variable {lines : List (List UInt8)}

theorem AreLines.byteLines_eq (h : AreLines lines bytes) : byteLines bytes = lines := by
  induction h with
  | nil => rfl
  | last hne hline => rw [byteLines_last hline, if_neg hne]
  | cons hline _ ih => rw [byteLines_line hline, ih]

theorem byteLines_eq_iff : byteLines bytes = lines ↔ AreLines lines bytes :=
  ⟨fun h => h ▸ areLines_byteLines bytes, AreLines.byteLines_eq⟩

/-- The decodings of lines, one after the other. -/
def decodeLines (lines : List (List UInt8)) : String :=
  String.join (lines.map decodeLossy)

@[simp] theorem decodeLines_nil : decodeLines [] = "" := String.join_nil

@[simp] theorem decodeLines_cons (line : List UInt8) (lines : List (List UInt8)) :
    decodeLines (line :: lines) = decodeLossy line ++ decodeLines lines := String.join_cons

theorem AreLines.decodeLines_eq (h : AreLines lines bytes) :
    decodeLines lines = decodeLossy bytes := by
  induction h with
  | nil => rfl
  | last => rw [decodeLines_cons, decodeLines_nil, String.append_empty]
  | cons _ _ ih => rw [decodeLines_cons, ih, ← decodeLossy_append (by decide)]

/-- The first lines make up what they begin with. -/
theorem AreLines.take (h : AreLines lines bytes) (n : Nat) :
    AreLines (lines.take n) (lines.take n).flatten := by
  induction h generalizing n with
  | nil => simpa using .nil
  | last hne hline =>
    cases n with
    | zero => exact .nil
    | succ n => simpa using .last hne hline
  | cons hline _ ih =>
    cases n with
    | zero => exact .nil
    | succ n =>
      rw [List.take_succ_cons, List.flatten_cons, List.append_assoc, List.singleton_append]
      exact .cons hline (ih n)

theorem decodeLines_append (lines lines' : List (List UInt8)) :
    decodeLines (lines ++ lines') = decodeLines lines ++ decodeLines lines' := by
  rw [decodeLines, List.map_append, String.join_append]
  rfl

end Lines

end RemoteAgent.Text
