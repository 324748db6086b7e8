import RemoteAgent.Agent.Basic
import RemoteAgent.Handshake.Sending
import RemoteAgent.Handshake.Receiving

/-!
# Serving one client

The agent speaks first: it sends its version, receives the client's, and goes on only if the two are
compatible. After that it consumes the stream until the client hangs up.
-/

namespace RemoteAgent.Agent

inductive Serving where
  | sending (own : Version) (state : Sending)
  | receiving (own : Version) (state : Receiving)
  | draining
  | done (result : Except AgentError Unit)

namespace Serving

def afterSending (own : Version) : Sending → Serving
  | .done (.ok ()) => .receiving own .start
  | .done (.error cause) => .done (.error (.protocol cause))
  | state => .sending own state

def afterReceiving (own : Version) : Receiving → Serving
  | .done (.ok remote) =>
    match own.check remote with
    | .compatible => .draining
    | .incompatible remote => .done (.error (.versionMismatch remote own))
  | .done (.error cause) => .done (.error (.protocol cause))
  | state => .receiving own state

/-- The stream is consumed to its end, as the runtime copies a stream into nothing: it is the
runtime that reads again after an interruption. -/
def afterDraining : Except IoError (List UInt8) → Serving
  | .ok [] => .done (.ok ())
  | .ok _ => .draining
  | .error cause =>
    if cause.kind = .interrupted then .draining else .done (.error (.io cause))

def start (own : Version) : Serving :=
  .sending own (.start own)

/-- The most that is read at once while draining. -/
def drainLimit : Nat := 8192

def action : Serving → StreamAction Serving (Except AgentError Unit)
  | sending own state =>
    match state with
    | .writing rest => .write rest fun outcome => afterSending own (.afterWrite rest outcome)
    | .flushing => .flush fun outcome => afterSending own (.afterFlush outcome)
    | .done result => .finish (result.mapError .protocol)
  | receiving own state =>
    match state with
    | .reading received =>
      .read (Version.wireSize - received.length) fun outcome =>
        afterReceiving own (.afterRead received outcome)
    | .done result => .finish ((result.map fun _ => ()).mapError .protocol)
  | draining => .read drainLimit afterDraining
  | done result => .finish result

def rank : Serving → Nat
  | sending _ state => 3 + state.rank
  | receiving _ state => 2 + state.rank
  | draining => 1
  | done _ => 0

theorem rank_afterSending_le (own : Version) (state : Sending) :
    (afterSending own state).rank ≤ 3 + state.rank := by
  unfold afterSending
  split <;> simp [rank, Receiving.start, Receiving.rank]

theorem rank_afterReceiving_le (own : Version) (state : Receiving) :
    (afterReceiving own state).rank ≤ 2 + state.rank := by
  unfold afterReceiving
  split
  · split <;> simp only [rank] <;> omega
  · simp [rank]
  · simp [rank]

instance : StreamMachine Serving (Except AgentError Unit) where
  action := action
  rank := rank
  rank_write {m _ _} h outcome := by
    rcases m with ⟨own, _ | _ | _⟩ | ⟨own, _ | _⟩ | _ | _ <;>
      simp only [action, StreamAction.write.injEq, reduceCtorEq] at h
    obtain ⟨rfl, rfl⟩ := h
    exact lt_or_of_le_add (rank_afterSending_le own _) (Sending.rank_afterWrite _ outcome)
  rank_flush {m _} h outcome := by
    rcases m with ⟨own, _ | _ | _⟩ | ⟨own, _ | _⟩ | _ | _ <;>
      simp only [action, StreamAction.flush.injEq, reduceCtorEq] at h
    subst h
    have hle := rank_afterSending_le own (.afterFlush outcome)
    rw [Sending.rank_afterFlush] at hle
    exact Nat.lt_succ_of_le hle
  rank_read {m _ _} h outcome := by
    rcases m with ⟨own, _ | _ | _⟩ | ⟨own, received | _⟩ | _ | _ <;>
      simp only [action, StreamAction.read.injEq, reduceCtorEq] at h
    · obtain ⟨-, rfl⟩ := h
      exact lt_or_of_le_add (rank_afterReceiving_le own _)
        (Receiving.rank_afterRead received outcome)
    · obtain ⟨-, rfl⟩ := h
      unfold afterDraining
      split
      · exact .inl (by simp [rank])
      · exact .inr ⟨rfl, by simp_all [MayGoOn]⟩
      · split
        · exact .inr ⟨rfl, by assumption⟩
        · exact .inl (by simp [rank])

end Serving

def serve {σ : Type} [ByteStream σ] (own : Version) (s : σ) : Except AgentError Unit × σ :=
  StreamMachine.run (Serving.start own) s

end RemoteAgent.Agent
