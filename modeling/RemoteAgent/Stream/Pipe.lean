import RemoteAgent.Stream.Machine

/-!
# Pipes between machines

A pipe holds a bounded number of bytes in the order in which they were written. A machine at its
ends takes a step when there is room to write or something to read, and waits otherwise. -/

namespace RemoteAgent

/-- A pipe: the bytes in it, and whether no more will be written. -/
structure Pipe where
  content : List UInt8
  closed : Bool
  deriving DecidableEq, Repr

def Pipe.empty : Pipe :=
  ⟨[], false⟩

/-- A machine that reads from one pipe and writes to another. -/
structure PipeEnd (μ : Type) where
  machine : μ
  incoming : Pipe
  outgoing : Pipe

namespace PipeEnd

open StreamMachine

variable {μ ρ : Type} [StreamMachine μ ρ]

/-- One step in which at most `grain` bytes pass, if the machine has neither to wait nor finished.
The outgoing pipe holds at most `capacity` bytes. -/
def step? (capacity grain : Nat) (e : PipeEnd μ) : Option (PipeEnd μ) :=
  match action e.machine with
  | .finish _ => none
  | .flush next => some { e with machine := next (.ok ()) }
  | .write bytes next =>
    let count := min grain (min bytes.length (capacity - e.outgoing.content.length))
    if count = 0 then none
    else
      let outgoing := { e.outgoing with content := e.outgoing.content ++ bytes.take count }
      some { e with machine := next (.ok count), outgoing }
  | .read limit next =>
    let count := min grain (min limit e.incoming.content.length)
    if count = 0 then
      if e.incoming.content.isEmpty && e.incoming.closed then
        some { e with machine := next (.ok []) }
      else none
    else
      let incoming := { e.incoming with content := e.incoming.content.drop count }
      some { e with machine := next (.ok (e.incoming.content.take count)), incoming }

def result? (e : PipeEnd μ) : Option ρ :=
  match action e.machine with
  | .finish result => some result
  | _ => none

theorem step?_lt {capacity grain : Nat} {e e' : PipeEnd μ} (h : e.step? capacity grain = some e') :
    rank e'.machine + e'.incoming.content.length <
      rank e.machine + e.incoming.content.length := by
  unfold step? at h
  split at h
  · cases h
  next next ha =>
    cases h
    exact Nat.add_lt_add_right (rank_flush ha _) _
  next bytes next ha =>
    dsimp only at h
    split at h
    · cases h
    · cases h
      exact Nat.add_lt_add_right ((rank_write ha _).resolve_right And.right) _
  next limit next ha =>
    dsimp only at h
    split at h
    · split at h
      · cases h
        have lower := (rank_read ha (.ok [])).resolve_right fun again => again.2 rfl
        exact Nat.add_lt_add_right lower _
      · cases h
    · cases h
      have hle := rank_read ha (.ok (e.incoming.content.take
        (min grain (min limit e.incoming.content.length))))
      dsimp only
      rw [List.length_drop]
      omega

/-- Takes steps until the machine has to wait or has finished. -/
def settle (capacity : Nat) (e : PipeEnd μ) : PipeEnd μ :=
  match _h : e.step? capacity capacity with
  | none => e
  | some e' => settle capacity e'
termination_by rank e.machine + e.incoming.content.length
decreasing_by exact step?_lt _h

end PipeEnd

end RemoteAgent
