import RemoteAgent.Stream.Script

/-! # What a reader gives

A reader is told by the bytes, ends and failures that it gives one after the other. How the bytes
are cut into pieces and what is delayed does not show in them: every read takes some of the bytes
that come next, or else the end or the failure that does.
-/

namespace RemoteAgent

inductive Signal where
  | byte (value : UInt8)
  /-- The end of the stream; there may be more after it. -/
  | ended
  | failure (cause : IoError)
  deriving DecidableEq, Repr

namespace Signal

/-- What a read that asks for bytes, but for no more than `limit`, can give, and what is left. -/
inductive Gives (limit : Nat) :
    List Signal → Except IoError (List UInt8) → List Signal → Prop where

  | bytes {bytes : List UInt8} {rest : List Signal} : bytes ≠ [] → bytes.length ≤ limit →
      Gives limit (bytes.map .byte ++ rest) (.ok bytes) rest

  | ended {rest : List Signal} : Gives limit (.ended :: rest) (.ok []) rest

  | failed {cause : IoError} {rest : List Signal} :
      Gives limit (.failure cause :: rest) (.error cause) rest

  /-- A stream that has nothing more to give has ended for good. -/
  | exhausted : Gives limit [] (.ok []) []

end Signal

open Signal

variable {limit : Nat}

/-- Everything that a reader will give. -/
def Reader.signals : Reader → List Signal
  | [] => []
  | .data bytes :: r => if bytes = [] then .ended :: signals r else bytes.map .byte ++ signals r
  | .failure cause :: r => .failure cause :: signals r
  | .delay :: r => signals r

theorem Reader.signals_data {bytes : List UInt8} (h : bytes ≠ []) (r : Reader) :
    signals (.data bytes :: r) = bytes.map .byte ++ signals r :=
  if_neg h

theorem Reader.gives_read (hpos : 0 < limit) (r : Reader) :
    Gives limit r.signals (r.read limit).1 (r.read limit).2.signals := by
  fun_induction read limit r with
  | case1 => exact .exhausted
  | case2 r ih => exact ih
  | case3 => exact .failed
  | case4 bytes r hle =>
    by_cases hnil : bytes = []
    · subst hnil
      exact .ended
    · rw [signals_data hnil]
      exact .bytes hnil hle
  | case5 bytes r hlt =>
    have htake : bytes.take limit ≠ [] := by
      rw [Ne, List.take_eq_nil_iff]
      rintro (hzero | rfl)
      · omega
      · simp at hlt
    have hdrop : bytes.drop limit ≠ [] := by
      rw [Ne, List.drop_eq_nil_iff]
      omega
    rw [signals_data (by rintro rfl; simp at hlt), signals_data hdrop,
      ← List.take_append_drop limit bytes, List.map_append, List.append_assoc,
      List.take_append_drop]
    exact .bytes htake (List.length_take_le _ _)

/-- Everything that the reading side of a scripted stream will give. -/
def Script.signals (s : Script) : List Signal :=
  s.reader.signals

theorem Script.gives_read (hpos : 0 < limit) (s : Script) :
    Gives limit s.signals (s.read limit).1 (s.read limit).2.signals := by
  have h := Reader.gives_read hpos s.reader
  unfold Script.read
  rcases hr : s.reader.read limit with ⟨cause | bytes, r⟩ <;> rw [hr] at h <;> exact h

theorem Script.signals_write (bytes : List UInt8) (s : Script) :
    (s.write bytes).2.signals = s.signals := by
  unfold Script.write
  split <;> rfl

theorem Script.signals_flush (s : Script) : s.flush.2.signals = s.signals := by
  unfold Script.flush
  split <;> rfl

end RemoteAgent
