import RemoteAgent.Dial.Error
import RemoteAgent.Handshake.Receiving
import RemoteAgent.Handshake.Sending

/-!
# Greeting an agent

The client waits for the agent's version and sends its own only if the two are compatible.
-/

namespace RemoteAgent.Dial

inductive Greeting where
  | receiving (own : Version) (state : Receiving)
  | sending (state : Sending)
  | done (result : Except DialError Unit)

namespace Greeting

def afterSending : Sending → Greeting
  | .done (.ok ()) => .done (.ok ())
  | .done (.error cause) => .done (.error (.handshake cause))
  | state => .sending state

def afterReceiving (own : Version) : Receiving → Greeting
  | .done (.ok remote) =>
    match own.check remote with
    | .compatible => .sending (.start own)
    | .incompatible remote => .done (.error (.versionMismatch remote own))
  | .done (.error cause) => .done (.error (.handshake cause))
  | state => .receiving own state

def start (own : Version) : Greeting :=
  .receiving own .start

def action : Greeting → StreamAction Greeting (Except DialError Unit)
  | receiving own state =>
    match state with
    | .reading received =>
      .read (Version.wireSize - received.length) fun outcome =>
        afterReceiving own (.afterRead received outcome)
    | .done result => .finish ((result.map fun _ => ()).mapError .handshake)
  | sending state =>
    match state with
    | .writing rest => .write rest fun outcome => afterSending (.afterWrite rest outcome)
    | .flushing => .flush fun outcome => afterSending (.afterFlush outcome)
    | .done result => .finish (result.mapError .handshake)
  | done result => .finish result

def rank : Greeting → Nat
  | receiving own state => 4 + own.toWire.length + state.rank
  | sending state => 1 + state.rank
  | done _ => 0

theorem rank_afterSending_le (state : Sending) : (afterSending state).rank ≤ 1 + state.rank := by
  unfold afterSending
  split <;> simp [rank]

theorem rank_afterReceiving_le (own : Version) (state : Receiving) :
    (afterReceiving own state).rank ≤ 4 + own.toWire.length + state.rank := by
  unfold afterReceiving
  split
  · split <;> simp only [rank, Sending.start, Sending.rank] <;> omega
  · simp [rank]
  · simp [rank]

instance : StreamMachine Greeting (Except DialError Unit) where
  action := action
  rank := rank
  rank_write {m _ _} h outcome := by
    rcases m with ⟨own, _ | _⟩ | ⟨_ | _ | _⟩ | _ <;>
      simp only [action, StreamAction.write.injEq, reduceCtorEq] at h
    obtain ⟨rfl, rfl⟩ := h
    exact lt_or_of_le_add (rank_afterSending_le _) (Sending.rank_afterWrite _ outcome)
  rank_flush {m _} h outcome := by
    rcases m with ⟨own, _ | _⟩ | ⟨_ | _ | _⟩ | _ <;>
      simp only [action, StreamAction.flush.injEq, reduceCtorEq] at h
    subst h
    have hle := rank_afterSending_le (.afterFlush outcome)
    rw [Sending.rank_afterFlush] at hle
    exact Nat.lt_succ_of_le hle
  rank_read {m _ _} h outcome := by
    rcases m with ⟨own, received | _⟩ | ⟨_ | _ | _⟩ | _ <;>
      simp only [action, StreamAction.read.injEq, reduceCtorEq] at h
    obtain ⟨-, rfl⟩ := h
    exact lt_or_of_le_add (rank_afterReceiving_le own _) (Receiving.rank_afterRead received outcome)

end Greeting

/-- The client's side of the handshake on a stream. -/
def greet {σ : Type} [ByteStream σ] (own : Version) (s : σ) : Except DialError Unit × σ :=
  StreamMachine.run (Greeting.start own) s

end RemoteAgent.Dial
