import Mathlib.Logic.Relation
import RemoteAgent.Dial.Basic
import RemoteAgent.Proofs.Dial.Attempt
import RemoteAgent.Proofs.Dial.Installation

/-! # The dialing machine

A dial goes through stages: one or two attempts, then perhaps an installation, a message and a last
attempt. Its runs are exactly those of a dial, and each stage has a budget of invocations, messages,
commands and copies, so that every dial has one.
-/

namespace RemoteAgent.Dial

open Effect Relation

variable {ω κ : Type}

inductive Stage where
  /-- The agent is to be reached, and may turn out to be missing. -/
  | attempting (paths : PathSyntax)
  | installing (paths : PathSyntax)
  | announcing (paths : PathSyntax)
  /-- The agent has been installed and is to be reached. -/
  | reconnecting (paths : PathSyntax)
  | finished (result : Except DialError Connection)

inductive Step (t : Transport ω κ) (p : Prompter ω) (s : Setting) :
    Stage × World ω → Stage × World ω → Prop where

  | connected {paths : PathSyntax} {c : Connection} {w w' : World ω} :
      (attempt (World.transport t) s paths).outcome w = (.ok c, w') →
      Step t p s (.attempting paths, w) (.finished (.ok c), w')

  | wrongShell {e : DialError} {w w' : World ω} :
      (attempt (World.transport t) s .posix).outcome w = (.error ⟨.wrongShell, e⟩, w') →
      Step t p s (.attempting .posix, w) (.attempting .windows, w')

  | missing {paths : PathSyntax} {e : DialError} {w w' : World ω} :
      (attempt (World.transport t) s paths).outcome w = (.error ⟨.agentMissing, e⟩, w') →
      Step t p s (.attempting paths, w) (.installing paths, w')

  | final {paths : PathSyntax} {failure : Invocation.Failure} {e : DialError} {w w' : World ω} :
      (attempt (World.transport t) s paths).outcome w = (.error ⟨failure, e⟩, w') →
      failure ≠ .agentMissing → ¬ (paths = .posix ∧ failure = .wrongShell) →
      Step t p s (.attempting paths, w) (.finished (.error e), w')

  | uninstalled {paths : PathSyntax} {e : DialError} {w w' : World ω} :
      (install t p s).outcome w = (.error e, w') →
      Step t p s (.installing paths, w) (.finished (.error e), w')

  | installed {paths : PathSyntax} {w w' : World ω} :
      (install t p s).outcome w = (.ok (), w') →
      Step t p s (.installing paths, w) (.announcing paths, w')

  | unannounced {paths : PathSyntax} {cause : PromptError} {w : World ω} {o : ω} :
      (p.message "Connecting to agent...").outcome w.outer = (.error cause, o) →
      Step t p s (.announcing paths, w)
        (.finished (.error (.prompt cause)), w.after o [.message "Connecting to agent..."])

  | announced {paths : PathSyntax} {w : World ω} {o : ω} :
      (p.message "Connecting to agent...").outcome w.outer = (.ok (), o) →
      Step t p s (.announcing paths, w)
        (.reconnecting paths, w.after o [.message "Connecting to agent..."])

  | reconnected {paths : PathSyntax} {c : Connection} {w w' : World ω} :
      (attempt (World.transport t) s paths).outcome w = (.ok c, w') →
      Step t p s (.reconnecting paths, w) (.finished (.ok c), w')

  | unreconnected {paths : PathSyntax} {failure : Invocation.Failure} {e : DialError}
      {w w' : World ω} :
      (attempt (World.transport t) s paths).outcome w = (.error ⟨failure, e⟩, w') →
      Step t p s (.reconnecting paths, w) (.finished (.error (.reconnect e)), w')

section Runs

variable {t : Transport ω κ} {p : Prompter ω} {s : Setting}

theorem Step.rightUnique : Relator.RightUnique (Step t p s) := by
  intro a b c hb hc
  cases hb <;> cases hc <;> simp_all

theorem not_step_finished {result : Except DialError Connection} {w : World ω}
    {b : Stage × World ω} : ¬ Step t p s (.finished result, w) b := nofun

theorem finished_unique {a : Stage × World ω} {r r' : Except DialError Connection}
    {w w' : World ω} (h : ReflTransGen (Step t p s) a (.finished r, w))
    (h' : ReflTransGen (Step t p s) a (.finished r', w')) : r = r' ∧ w = w' := by
  have heq : ∀ {r r' : Except DialError Connection} {w w' : World ω},
      ReflTransGen (Step t p s) (.finished r, w) (.finished r', w') → r = r' ∧ w = w' := by
    intro r r' w w' h
    rcases h.cases_head with h | ⟨c, hc, -⟩
    · cases h
      exact ⟨rfl, rfl⟩
    · exact absurd hc not_step_finished
  rcases ReflTransGen.total_of_right_unique Step.rightUnique h h' with h | h
  · exact heq h
  · obtain ⟨hr, hw⟩ := heq h
    exact ⟨hr.symm, hw.symm⟩

variable (t p s)

/-- From a stage the machine ends as a program does. -/
def EndsAs (stage : Stage) (x : Effect (World ω) DialError Connection) (w : World ω) : Prop :=
  ReflTransGen (Step t p s) (stage, w) (.finished (x.outcome w).1, (x.outcome w).2)

def reconnection (paths : PathSyntax) : Effect (World ω) DialError Connection := do
  tell (World.prompter p) connectMessage
  (attempt (World.transport t) s paths).mapError fun failed => .reconnect failed.error

variable {t p s}

theorem endsAs_reconnecting (paths : PathSyntax) (w : World ω) :
    EndsAs t p s (.reconnecting paths)
      ((attempt (World.transport t) s paths).mapError fun failed => .reconnect failed.error) w := by
  unfold EndsAs
  rw [outcome_mapError]
  rcases h : (attempt (World.transport t) s paths).outcome w with ⟨⟨failure, e⟩ | c, w'⟩
  · exact .single (.unreconnected h)
  · exact .single (.reconnected h)

theorem endsAs_announcing (paths : PathSyntax) (w : World ω) :
    EndsAs t p s (.announcing paths) (reconnection t p s paths) w := by
  have ht := outcome_tell p w connectMessage
  rw [outcome_telling] at ht
  unfold EndsAs reconnection
  rcases hm : (p.message connectMessage).outcome w.outer with ⟨cause | _, o⟩ <;> rw [hm] at ht
  · rw [outcome_bind_error ht]
    exact .single (.unannounced hm)
  · rw [outcome_bind_ok ht]
    exact .head (.announced hm) (endsAs_reconnecting _ _)

theorem endsAs_installing (paths : PathSyntax) (w : World ω) :
    EndsAs t p s (.installing paths) (install t p s >>= fun _ => reconnection t p s paths) w := by
  unfold EndsAs
  rcases hi : (install t p s).outcome w with ⟨e | _, w'⟩
  · rw [outcome_bind_error hi]
    exact .single (.uninstalled hi)
  · rw [outcome_bind_ok hi]
    exact .head (.installed hi) (endsAs_announcing _ _)

theorem afterAttempt_missing (paths : PathSyntax) (e : DialError) :
    afterAttempt (World.transport t) (World.prompter p) s paths (.error ⟨.agentMissing, e⟩) =
      (install t p s >>= fun _ => reconnection t p s paths) := rfl

theorem outcome_afterAttempt_final {paths : PathSyntax} {failure : Invocation.Failure}
    {e : DialError} {w : World ω} (hf : failure ≠ .agentMissing) :
    (afterAttempt (World.transport t) (World.prompter p) s paths (.error ⟨failure, e⟩)).outcome w =
      (.error e, w) := by
  unfold afterAttempt
  dsimp only
  rw [if_pos hf]
  rfl

theorem reaches_afterAttempt {paths : PathSyntax} {w w' : World ω}
    {r : Except FailedAttempt Connection}
    (h : (attempt (World.transport t) s paths).outcome w = (r, w'))
    (hr : ∀ e, ¬ (paths = .posix ∧ r = .error ⟨.wrongShell, e⟩)) :
    ReflTransGen (Step t p s) (.attempting paths, w)
      (.finished ((afterAttempt (World.transport t) (World.prompter p) s paths r).outcome w').1,
        ((afterAttempt (World.transport t) (World.prompter p) s paths r).outcome w').2) := by
  rcases r with ⟨failure, e⟩ | c
  · by_cases hf : failure = .agentMissing
    · subst hf
      rw [afterAttempt_missing]
      exact .head (.missing h) (endsAs_installing _ _)
    · rw [outcome_afterAttempt_final hf]
      refine .single (.final h hf ?_)
      rintro ⟨rfl, rfl⟩
      exact hr e ⟨rfl, rfl⟩
  · exact .single (.connected h)

/-- A dial is a run of the machine. -/
theorem endsAs_dialTransport (w : World ω) :
    EndsAs t p s (.attempting .posix) (dialTransport t p s) w := by
  simp only [EndsAs, dialTransport, dialThrough, outcome_bind, outcome_attempt]
  rcases h : (attempt (World.transport t) s .posix).outcome w with ⟨⟨failure, e⟩ | c, w₁⟩
  · cases failure with
    | wrongShell =>
      refine .head (.wrongShell h) ?_
      simp only [outcome_bind, outcome_attempt]
      exact reaches_afterAttempt rfl fun e h => nomatch h.1
    | agentMissing => exact reaches_afterAttempt h fun e h => nomatch h.2
    | other => exact reaches_afterAttempt h fun e h => nomatch h.2
  · exact reaches_afterAttempt h fun e h => nomatch h.2

end Runs

end RemoteAgent.Dial
