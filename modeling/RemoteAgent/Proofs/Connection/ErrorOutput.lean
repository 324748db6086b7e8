import RemoteAgent.Connection.Basic
import RemoteAgent.Invocation
import RemoteAgent.Proofs.Text.ByteLines
import RemoteAgent.Proofs.Text.Utf8
import RemoteAgent.Rehearsal.Reply

/-! # What is captured of an error output

Of an error output its first lines are captured, until they reach the limit. Lines are captured
whole, so the end of the text goes as far beyond the limit as the line does that reaches it: how
much is held is bounded by the limit and the longest line, and by nothing else.
-/

namespace RemoteAgent

open Text

namespace ErrorOutput

/-- The text held once these lines have ended. -/
def hold (text : String) (lines : List (List UInt8)) : String :=
  lines.foldl
    (fun text line => if text.utf8ByteSize < limit then text ++ decodeLossy line else text) text

variable {text : String} {lines : List (List UInt8)}

theorem hold_of_full (h : limit ≤ text.utf8ByteSize) (lines : List (List UInt8)) :
    hold text lines = text := by
  induction lines with
  | nil => rfl
  | cons line lines ih => rwa [hold, List.foldl_cons, if_neg (Nat.not_lt.2 h)]

theorem hold_cons (h : text.utf8ByteSize < limit) (line : List UInt8)
    (lines : List (List UInt8)) :
    hold text (line :: lines) = hold (text ++ decodeLossy line) lines := by
  rw [hold, List.foldl_cons, if_pos h]
  rfl

/-- Feeding bytes to a line that has begun holds the lines that come of it. -/
theorem text_finish_feed {begun : List UInt8} (h : 10 ∉ begun) (text : String)
    (bytes : List UInt8) :
    (feed ⟨begun.reverse, text⟩ bytes).finish.text = hold text (byteLines (begun ++ bytes)) := by
  induction bytes generalizing begun text with
  | nil =>
    rw [List.append_nil, byteLines_last h, feed, List.foldl_nil, finish]
    by_cases hnil : begun = []
    · simp [hnil, hold]
    · simp [hnil, hold, endLine]
  | cons b bytes ih =>
    rw [feed, List.foldl_cons]
    by_cases hb : b = 10
    · subst hb
      have hended : feedByte ⟨begun.reverse, text⟩ 10 =
          ⟨[].reverse, hold text [begun ++ [10]]⟩ := by
        simp [feedByte, endLine, hold]
      rw [byteLines_line h, hended]
      exact @ih [] nofun _
    · have hbegun : 10 ∉ begun ++ [b] := by simpa [h] using Ne.symm hb
      have hfed : feedByte ⟨begun.reverse, text⟩ b = ⟨(begun ++ [b]).reverse, text⟩ := by
        simp [feedByte, hb]
      rw [hfed, List.append_cons begun b bytes]
      exact ih hbegun text

theorem ofPieces_eq (pieces : List (List UInt8)) :
    ofPieces pieces = feed empty pieces.flatten := by
  unfold ofPieces feed
  rw [List.foldl_flatten]

theorem capture_eq (pieces : List (List UInt8)) :
    capture pieces = hold "" (byteLines pieces.flatten) := by
  rw [capture, ofPieces_eq]
  exact @text_finish_feed [] nofun "" _

section Kept

/-- How many of these lines are kept: the fewest whose decodings reach the limit, or all if they do
not reach it. -/
structure IsKept (lines : List (List UInt8)) (kept : Nat) : Prop where
  le_length : kept ≤ lines.length
  room : ∀ n < kept, (decodeLines (lines.take n)).utf8ByteSize < limit
  full : kept < lines.length → limit ≤ (decodeLines (lines.take kept)).utf8ByteSize

/-- A line is held as long as there is room. -/
theorem exists_hold_eq (text : String) (lines : List (List UInt8)) :
    ∃ kept ≤ lines.length, hold text lines = text ++ decodeLines (lines.take kept) ∧
      (∀ n < kept, (text ++ decodeLines (lines.take n)).utf8ByteSize < limit) ∧
      (kept < lines.length → limit ≤ (text ++ decodeLines (lines.take kept)).utf8ByteSize) := by
  induction lines generalizing text with
  | nil => exact ⟨0, Nat.le_refl 0, by simp [hold], nofun, nofun⟩
  | cons line lines ih =>
    rcases Nat.lt_or_ge text.utf8ByteSize limit with hroom | hfull
    · obtain ⟨kept, hle, heq, hbefore, hlast⟩ := ih (text ++ decodeLossy line)
      refine ⟨kept + 1, Nat.succ_le_succ hle, ?_, fun n hn => ?_, fun hn => ?_⟩
      · rw [hold_cons hroom, heq, List.take_succ_cons, decodeLines_cons, String.append_assoc]
      · cases n with
        | zero => simpa using hroom
        | succ n =>
          rw [List.take_succ_cons, decodeLines_cons, ← String.append_assoc]
          exact hbefore n (Nat.lt_of_succ_lt_succ hn)
      · rw [List.take_succ_cons, decodeLines_cons, ← String.append_assoc]
        exact hlast (Nat.lt_of_succ_lt_succ hn)
    · refine ⟨0, Nat.zero_le _, ?_, nofun, fun _ => ?_⟩
      · rw [hold_of_full hfull, List.take_zero, decodeLines_nil, String.append_empty]
      · simpa using hfull

theorem exists_isKept (lines : List (List UInt8)) :
    ∃ kept, IsKept lines kept ∧ hold "" lines = decodeLines (lines.take kept) := by
  obtain ⟨kept, hle, heq, hroom, hfull⟩ := exists_hold_eq "" lines
  simp only [String.empty_append] at heq hroom hfull
  exact ⟨kept, ⟨hle, hroom, hfull⟩, heq⟩

variable {pieces : List (List UInt8)} {kept : Nat}

/-- What is not captured comes after what is; nothing is left out unless the limit is reached. -/
theorem exists_decodeLossy_eq (pieces : List (List UInt8)) :
    ∃ rest, decodeLossy pieces.flatten = capture pieces ++ rest ∧
      (rest = "" ∨ limit ≤ (capture pieces).utf8ByteSize) := by
  obtain ⟨kept, hkept, heq⟩ := exists_isKept (byteLines pieces.flatten)
  have hlines := areLines_byteLines pieces.flatten
  refine ⟨decodeLines ((byteLines pieces.flatten).drop kept), ?_, ?_⟩
  · rw [capture_eq, heq, ← decodeLines_append, List.take_append_drop, hlines.decodeLines_eq]
  · rw [capture_eq, heq]
    rcases Nat.lt_or_ge kept (byteLines pieces.flatten).length with hlt | hge
    · exact .inr (hkept.full hlt)
    · exact .inl (by rw [List.drop_of_length_le hge, decodeLines_nil])

/-- What is captured begins with all that stands before the limit. -/
theorem isPrefix_capture {begun after : String}
    (h : decodeLossy pieces.flatten = begun ++ after) (hsize : begun.utf8ByteSize ≤ limit) :
    begun.toList <+: (capture pieces).toList := by
  obtain ⟨rest, hrest, hlimit⟩ := exists_decodeLossy_eq pieces
  have hbegun : begun.toList <+: (decodeLossy pieces.flatten).toList := by
    rw [h, String.toList_append]
    exact List.prefix_append _ _
  rcases hlimit with rfl | hlimit
  · rwa [hrest, String.append_empty] at hbegun
  · have hcapture : (capture pieces).toList <+: (decodeLossy pieces.flatten).toList := by
      rw [hrest, String.toList_append]
      exact List.prefix_append _ _
    rcases List.prefix_or_prefix_of_prefix hbegun hcapture with hle | ⟨more, hmore⟩
    · exact hle
    -- No more than all of it can be captured within the limit.
    · have heq : begun = capture pieces ++ String.ofList more := by
        apply String.toList_injective
        rw [String.toList_append, String.toList_ofList, hmore]
      have hnone : String.ofList more = "" := by
        rw [← String.utf8ByteSize_eq_zero_iff]
        rw [heq, String.utf8ByteSize_append] at hsize
        omega
      rw [hnone, String.append_empty] at heq
      exact heq ▸ List.prefix_rfl

theorem capture_of_le (h : (decodeLossy pieces.flatten).utf8ByteSize ≤ limit) :
    capture pieces = decodeLossy pieces.flatten := by
  obtain ⟨rest, hrest, -⟩ := exists_decodeLossy_eq pieces
  have hall : (decodeLossy pieces.flatten).toList <+: (capture pieces).toList :=
    isPrefix_capture String.append_empty.symm h
  have hcapture : (capture pieces).toList <+: (decodeLossy pieces.flatten).toList := by
    rw [hrest, String.toList_append]
    exact List.prefix_append _ _
  exact String.toList_injective (hcapture.eq_of_length_le hall.length_le)

end Kept

section Capture

/-- A text that lies before the limit is found in what is captured. -/
theorem occursIn_capture {pieces : List (List UInt8)} {begun fragment after : String}
    (h : decodeLossy pieces.flatten = begun ++ fragment ++ after)
    (hsize : (begun ++ fragment).utf8ByteSize ≤ limit) :
    occursIn fragment.toList (capture pieces).toList = true := by
  obtain ⟨more, hmore⟩ := isPrefix_capture h hsize
  rw [occursIn_iff, ← hmore, String.toList_append]
  exact ⟨begun.toList, more, rfl⟩

theorem encode_append (s t : String) : encode (s ++ t) = encode s ++ encode t := by
  simp [encode]

theorem length_encode (s : String) : (encode s).length = s.utf8ByteSize := by
  simp [encode]

theorem take_limit_isPrefix_capture (pieces : List (List UInt8)) :
    (encode (decodeLossy pieces.flatten)).take limit <+: encode (capture pieces) := by
  obtain ⟨rest, hrest, rfl | hlimit⟩ := exists_decodeLossy_eq pieces
  · rw [hrest, String.append_empty]
    exact List.take_prefix _ _
  · rw [hrest, encode_append, List.take_append_of_le_length (by rwa [length_encode])]
    exact List.take_prefix _ _

theorem classify_of_notRecognized {text : String} (code : Option Int)
    (h : occursIn Invocation.notRecognizedText.toList text.toList = true) :
    Invocation.classify code text = Invocation.classify code Invocation.notRecognizedText := by
  have hself : occursIn Invocation.notRecognizedText.toList Invocation.notRecognizedText.toList =
      true := occursIn_iff.2 List.infix_rfl
  rw [Invocation.classify, Invocation.classify, h, hself]
  rfl

theorem classify_ne_other {text : String} (code : Option Int)
    (h : occursIn Invocation.pathNotFoundText.toList text.toList = true) :
    Invocation.classify code text ≠ .other := by
  unfold Invocation.classify
  rw [h]
  split
  · decide
  · split <;> decide

/-- However an error output is cut into pieces, what is captured of it are its first lines, each
whole and decoded by itself: the fewest that decode to as many bytes as the limit says, or all. That
is how the decoding of the whole output begins, and all of it before the limit is there to be found
when a failure is classified. -/
theorem capture_wholeLines (pieces : List (List UInt8)) :
    (∃ kept, IsKept (byteLines pieces.flatten) kept ∧
      capture pieces = decodeLines ((byteLines pieces.flatten).take kept) ∧
      capture pieces = decodeLossy ((byteLines pieces.flatten).take kept).flatten) ∧
    (∃ rest, decodeLossy pieces.flatten = capture pieces ++ rest) ∧
    (encode (decodeLossy pieces.flatten)).take limit <+: encode (capture pieces) ∧
    (∀ begun fragment after, decodeLossy pieces.flatten = begun ++ fragment ++ after →
      (begun ++ fragment).utf8ByteSize ≤ limit →
      occursIn fragment.toList (capture pieces).toList = true ∧
      (fragment = Invocation.notRecognizedText → ∀ code,
        Invocation.classify code (capture pieces) = Invocation.classify code fragment) ∧
      (fragment = Invocation.pathNotFoundText → ∀ code,
        Invocation.classify code (capture pieces) ≠ .other)) ∧
    ((decodeLossy pieces.flatten).utf8ByteSize ≤ limit → ∀ code,
      Invocation.classify code (capture pieces) =
        Invocation.classify code (decodeLossy pieces.flatten)) ∧
    ∀ c : Connection, c.process.errorOutput = pieces → c.hasEnded = true →
      c.errorOutput = capture pieces := by
  refine ⟨?_, ?_, take_limit_isPrefix_capture pieces, fun begun fragment after h hsize => ?_,
    fun hsize code => by rw [capture_of_le hsize], fun c hpieces hended => ?_⟩
  · obtain ⟨kept, hkept, heq⟩ := exists_isKept (byteLines pieces.flatten)
    have hlines := (areLines_byteLines pieces.flatten).take kept
    rw [capture_eq]
    exact ⟨kept, hkept, heq, heq.trans hlines.decodeLines_eq⟩
  · obtain ⟨rest, hrest, -⟩ := exists_decodeLossy_eq pieces
    exact ⟨rest, hrest⟩
  · have hoccurs := occursIn_capture h hsize
    refine ⟨hoccurs, ?_, ?_⟩
    · rintro rfl code
      exact classify_of_notRecognized code hoccurs
    · rintro rfl code
      exact classify_ne_other code hoccurs
  · rw [Connection.errorOutput, if_pos hended, hpieces]

end Capture

section Retention

variable {text : String} {lines : List (List UInt8)}

/-- A line that does not fit ends what is held beyond the limit, by less than the line itself. -/
theorem size_hold_lt {longest : Nat} (h : text.utf8ByteSize < limit + longest)
    (hlines : ∀ line ∈ lines, (decodeLossy line).utf8ByteSize ≤ longest) :
    (hold text lines).utf8ByteSize < limit + longest := by
  induction lines generalizing text with
  | nil => exact h
  | cons line lines ih =>
    obtain ⟨hline, hlines⟩ := List.forall_mem_cons.1 hlines
    rcases Nat.lt_or_ge text.utf8ByteSize limit with hroom | hfull
    · rw [hold_cons hroom]
      refine ih ?_ hlines
      rw [String.utf8ByteSize_append]
      omega
    · rwa [hold_of_full hfull]

/-- The end of the stream can only add to what is held. -/
theorem size_text_le_size_finish (e : ErrorOutput) :
    e.text.utf8ByteSize ≤ e.finish.text.utf8ByteSize := by
  unfold finish endLine
  split
  · exact Nat.le_refl _
  · dsimp only
    split
    · rw [String.utf8ByteSize_append]
      exact Nat.le_add_right _ _
    · exact Nat.le_refl _

theorem size_errorOutput_le (c : Connection) :
    c.errorOutput.utf8ByteSize ≤ (capture c.process.errorOutput).utf8ByteSize := by
  unfold Connection.errorOutput
  split
  · exact Nat.le_refl _
  · exact size_text_le_size_finish _

/-- What a connection holds of the error output of its process, at any time, exceeds the limit by
less than three times the longest line, however many lines there are. -/
theorem size_errorOutput_lt (c : Connection) {longest : Nat}
    (h : ∀ line ∈ byteLines c.process.errorOutput.flatten, line.length ≤ longest) :
    c.errorOutput.utf8ByteSize < limit + 3 * longest := by
  refine Nat.lt_of_le_of_lt (size_errorOutput_le c) ?_
  rw [capture_eq]
  have hempty : "".utf8ByteSize < limit + 3 * longest :=
    Nat.lt_of_lt_of_le (by decide) (Nat.le_add_right limit _)
  refine size_hold_lt hempty fun line hline => ?_
  exact Nat.le_trans (size_decodeLossy_le line) (Nat.mul_le_mul_left 3 (h line hline))

/-- A process that says on its error output what a shell does, and ends. -/
def grumblingReply : Rehearsal.Reply where
  output := []
  errorOutput := encode "sh: 1: tether-agent: not found\ntry 'apt install tether'\n"
  mode := .exit
  status := .exited 127

theorem size_errorOutput_lt_grumbling :
    (∀ line ∈ byteLines grumblingReply.process.errorOutput.flatten, line.length ≤ 31) ∧
      (Connection.new grumblingReply.process ⟨0⟩).errorOutput.utf8ByteSize < limit + 3 * 31 :=
  have hlines : ∀ line ∈ byteLines grumblingReply.process.errorOutput.flatten,
      line.length ≤ 31 := by decide
  ⟨hlines, size_errorOutput_lt (Connection.new grumblingReply.process ⟨0⟩) hlines⟩

/-- A process that says so many letters on its error output, and no line feed. -/
def endlessReply (n : Nat) : Rehearsal.Reply where
  output := []
  errorOutput := encode (String.ofList (List.replicate n 'x'))
  mode := .exit
  status := .exited 1

theorem encode_replicate (n : Nat) :
    encode (String.ofList (List.replicate n 'x')) = List.replicate n 120 := by
  rw [encode_eq, String.toList_ofList]
  induction n with
  | zero => rfl
  | succ n ih =>
    rw [List.replicate_succ, List.flatMap_cons, ih]
    rfl

theorem size_errorOutput_endless (n : Nat) :
    (Connection.new (endlessReply n).process ⟨0⟩).errorOutput.utf8ByteSize = n := by
  have hended : (Connection.new (endlessReply n).process ⟨0⟩).hasEnded = true := rfl
  have hflatten : (endlessReply n).process.errorOutput.flatten =
      encode (String.ofList (List.replicate n 'x')) := List.append_nil _
  have hlast : 10 ∉ encode (String.ofList (List.replicate n 'x')) := by
    rw [encode_replicate]
    simp
  have hwhole : capture (endlessReply n).process.errorOutput =
      String.ofList (List.replicate n 'x') := by
    rw [capture_eq, hflatten, byteLines_last hlast]
    split
    next hnil =>
      rw [encode_replicate, List.replicate_eq_nil_iff] at hnil
      subst hnil
      rfl
    · rw [hold_cons (by decide), decodeLossy_encode]
      exact String.empty_append
  rw [Connection.errorOutput, if_pos hended]
  change (capture (endlessReply n).process.errorOutput).utf8ByteSize = n
  rw [hwhole, ← length_encode, encode_replicate, List.length_replicate]

/-- A process that never ends its first line is held to no bound. -/
theorem errorOutput_unbounded :
    ¬ ∃ bound, ∀ c : Connection, c.errorOutput.utf8ByteSize ≤ bound := by
  rintro ⟨bound, h⟩
  have hle := h (.new (endlessReply (bound + 1)).process ⟨0⟩)
  rw [size_errorOutput_endless] at hle
  omega

end Retention

end ErrorOutput

end RemoteAgent
