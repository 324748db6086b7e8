import RemoteAgent.Version
import RemoteAgent.Stream.Machine

/-!
# Receiving a version

Never more is asked for than belongs to the version, so what follows it stays in the stream.
-/

namespace RemoteAgent

inductive Receiving where
  /-- These bytes have arrived. -/
  | reading (received : List UInt8)
  | done (result : Except ProtocolError Version)

namespace Receiving

def start : Receiving :=
  .reading []

def afterRead (received : List UInt8) : Except IoError (List UInt8) → Receiving
  | .ok [] => .done (.error (.truncated received.length Version.wireSize))
  | .ok bytes =>
    if (received ++ bytes).length < Version.wireSize then .reading (received ++ bytes)
    else .done (Version.ofWire (received ++ bytes))
  | .error cause => .done (.error (.io cause))

def action : Receiving → StreamAction Receiving (Except ProtocolError Version)
  | reading received => .read (Version.wireSize - received.length) (afterRead received)
  | done result => .finish result

def rank : Receiving → Nat
  | reading _ => 1
  | done _ => 0

theorem rank_afterRead (received : List UInt8) (outcome : Except IoError (List UInt8)) :
    rank (afterRead received outcome) < 1 ∨
      rank (afterRead received outcome) = 1 ∧ MayGoOn outcome := by
  unfold afterRead
  split
  · simp [rank]
  · split <;> simp_all [rank, MayGoOn]
  · simp [rank]

instance : StreamMachine Receiving (Except ProtocolError Version) where
  action := action
  rank := rank
  rank_write {m _ _} h := by cases m <;> simp [action] at h
  rank_flush {m _} h := by cases m <;> simp [action] at h
  rank_read {m _ _} h outcome := by
    cases m <;> simp only [action, StreamAction.read.injEq, reduceCtorEq] at h
    obtain ⟨-, rfl⟩ := h
    exact rank_afterRead _ outcome

end Receiving

end RemoteAgent
