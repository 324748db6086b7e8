import RemoteAgent.Version
import RemoteAgent.Stream.Writing

/-!
# Sending a version

The wire form is offered until all of it has been taken, then the stream is flushed.
-/

namespace RemoteAgent

inductive Sending where
  /-- These bytes have not been taken yet. -/
  | writing (rest : List UInt8)
  | flushing
  | done (result : Except ProtocolError Unit)

namespace Sending

def start (v : Version) : Sending :=
  .writing v.toWire

def afterWriting : Writing → Sending
  | .writing rest => .writing rest
  | .done (.ok ()) => .flushing
  | .done (.error cause) => .done (.error (.io cause))

/-- The wire form is written as the runtime writes all of some bytes. That an interrupted offer is
made again is done by the runtime and not by the agent or its client. -/
def afterWrite (rest : List UInt8) (outcome : Except IoError Nat) : Sending :=
  afterWriting (.afterWrite rest outcome)

def afterFlush : Except IoError Unit → Sending
  | .ok () => .done (.ok ())
  | .error cause => .done (.error (.io cause))

def action : Sending → StreamAction Sending (Except ProtocolError Unit)
  | writing rest => .write rest (afterWrite rest)
  | flushing => .flush afterFlush
  | done result => .finish result

def rank : Sending → Nat
  | writing rest => 2 + rest.length
  | flushing => 1
  | done _ => 0

theorem rank_afterWriting_le (state : Writing) : rank (afterWriting state) ≤ 1 + state.rank := by
  unfold afterWriting
  split <;> simp only [rank, Writing.rank] <;> omega

theorem rank_afterWrite (rest : List UInt8) (outcome : Except IoError Nat) :
    rank (afterWrite rest outcome) < 2 + rest.length ∨
      rank (afterWrite rest outcome) = 2 + rest.length ∧ MayRepeat outcome := by
  have h := lt_or_of_le_add (rank_afterWriting_le (.afterWrite rest outcome))
    (Writing.rank_afterWrite rest outcome)
  rwa [← Nat.add_assoc] at h

theorem rank_afterFlush (outcome : Except IoError Unit) : rank (afterFlush outcome) = 0 := by
  unfold afterFlush; split <;> rfl

instance : StreamMachine Sending (Except ProtocolError Unit) where
  action := action
  rank := rank
  rank_write {m _ _} h outcome := by
    cases m <;> simp only [action, StreamAction.write.injEq, reduceCtorEq] at h
    obtain ⟨rfl, rfl⟩ := h
    exact rank_afterWrite _ outcome
  rank_flush {m _} h outcome := by
    cases m <;> simp only [action, StreamAction.flush.injEq, reduceCtorEq] at h
    subst h
    rw [rank_afterFlush]
    decide
  rank_read {m _ _} h := by cases m <;> simp [action] at h

end Sending

end RemoteAgent
