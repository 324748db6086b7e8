import RemoteAgent.Stream.Machine

/-!
# Scripted streams

The reading side gives data in pieces, may be delayed, may report an end and go on after it, and may
fail. The writing side takes as much of an offer as it likes, may be delayed, and may fail. What was
done on the stream is on record.
-/

namespace RemoteAgent

inductive ReadEvent where
  /-- A piece of data; an empty piece is an end of stream. -/
  | data (bytes : List UInt8)
  | failure (cause : IoError)
  | delay
  deriving DecidableEq, Repr

/-- What will happen on the reading side; after that the stream has ended. -/
abbrev Reader := List ReadEvent

namespace Reader

/-- Reads up to `limit` bytes of one piece. -/
def read (limit : Nat) : Reader → Except IoError (List UInt8) × Reader
  | [] => (.ok [], [])
  | .delay :: r => read limit r
  | .failure cause :: r => (.error cause, r)
  | .data bytes :: r =>
    if bytes.length ≤ limit then (.ok bytes, r)
    else (.ok (bytes.take limit), .data (bytes.drop limit) :: r)

/-- The data not yet taken. -/
def contents : Reader → List UInt8
  | [] => []
  | .data bytes :: r => bytes ++ contents r
  | _ :: r => contents r

theorem length_read_lt {limit : Nat} {r : Reader} (h : (r.read limit).1 ≠ .ok []) :
    (r.read limit).2.length + (r.read limit).2.contents.length < r.length + r.contents.length := by
  fun_induction read limit r with
  | case1 => exact absurd rfl h
  | case2 r ih => have := ih h; simp only [List.length_cons, contents]; omega
  | case3 => simp only [List.length_cons, contents]; omega
  | case4 => simp only [List.length_cons, contents, List.length_append]; omega
  | case5 bytes r hlt =>
    have : limit ≠ 0 := by rintro rfl; simp at h
    simp only [List.length_cons, contents, List.length_append, List.length_drop]; omega

end Reader

inductive WriteEvent where
  /-- At most so many bytes of the next offer are taken. -/
  | accept (limit : Nat)
  | failure (cause : IoError)
  | delay
  deriving DecidableEq, Repr

/-- Meets an offer of so many bytes: how many are taken, and what happens after it. Once nothing is
left to happen, every offer is taken whole. -/
def WriteEvent.meet (size : Nat) : List WriteEvent → Except IoError Nat × List WriteEvent
  | [] => (.ok size, [])
  | .delay :: r => meet size r
  | .failure cause :: r => (.error cause, r)
  | .accept limit :: r => (.ok (min limit size), r)

theorem WriteEvent.length_meet_lt {size : Nat} {events : List WriteEvent}
    (h : (meet size events).1 ≠ .ok size) : (meet size events).2.length < events.length := by
  fun_induction meet size events with
  | case1 => exact absurd rfl h
  | case2 r ih => have := ih h; simp only [List.length_cons]; omega
  | case3 => simp
  | case4 => simp

inductive StreamEvent where
  /-- Bytes were offered and some of them taken. -/
  | wrote (offered : List UInt8) (count : Nat)
  | flushed
  | read (bytes : List UInt8)
  | failed (cause : IoError)
  deriving DecidableEq, Repr

/-- A scripted stream: what will happen on both sides, whether flushing fails, and what was done. -/
structure Script where
  reader : Reader
  writes : List WriteEvent
  flushFailure : Option IoError
  history : List StreamEvent
  deriving DecidableEq, Repr

namespace Script

def write (bytes : List UInt8) (s : Script) : Except IoError Nat × Script :=
  match WriteEvent.meet bytes.length s.writes with
  | (.ok count, writes) =>
    (.ok count, { s with writes, history := s.history ++ [.wrote bytes count] })
  | (.error cause, writes) =>
    (.error cause, { s with writes, history := s.history ++ [.failed cause] })

def flush (s : Script) : Except IoError Unit × Script :=
  match s.flushFailure with
  | none => (.ok (), { s with history := s.history ++ [.flushed] })
  | some cause => (.error cause, { s with history := s.history ++ [.failed cause] })

def read (limit : Nat) (s : Script) : Except IoError (List UInt8) × Script :=
  match s.reader.read limit with
  | (.ok bytes, reader) =>
    (.ok bytes, { s with reader, history := s.history ++ [.read bytes] })
  | (.error cause, reader) =>
    (.error cause, { s with reader, history := s.history ++ [.failed cause] })

/-- How much can still happen. -/
def weight (s : Script) : Nat :=
  s.reader.length + s.reader.contents.length + s.writes.length

/-- The bytes taken so far. -/
def written (s : Script) : List UInt8 :=
  s.history.flatMap fun
    | .wrote offered count => offered.take count
    | _ => []

theorem weight_write_lt {bytes : List UInt8} {s : Script} (h : MayRepeat (s.write bytes).1) :
    (s.write bytes).2.weight < s.weight := by
  have hm : (WriteEvent.meet bytes.length s.writes).1 ≠ .ok bytes.length := by
    intro he
    rcases hs : WriteEvent.meet bytes.length s.writes with ⟨r, ws⟩
    rw [hs] at he
    cases he
    simp [write, hs, MayRepeat] at h
  have := WriteEvent.length_meet_lt hm
  rcases hs : WriteEvent.meet bytes.length s.writes with ⟨_ | _, ws⟩ <;>
    rw [hs] at this <;> dsimp only at this <;> simp only [write, hs, weight] <;> omega

theorem weight_read_lt {limit : Nat} {s : Script} (h : MayGoOn (s.read limit).1) :
    (s.read limit).2.weight < s.weight := by
  have hm : (s.reader.read limit).1 ≠ .ok [] := by
    intro he
    rcases hs : s.reader.read limit with ⟨r, rest⟩
    rw [hs] at he
    cases he
    simp [read, hs, MayGoOn] at h
  have := Reader.length_read_lt hm
  rcases hs : s.reader.read limit with ⟨_ | _, rest⟩ <;>
    rw [hs] at this <;> dsimp only at this <;> simp only [read, hs, weight] <;> omega

instance : ByteStream Script where
  write := write
  flush := flush
  read := read
  weight := weight
  weight_write := weight_write_lt
  weight_read := weight_read_lt

end Script

end RemoteAgent
