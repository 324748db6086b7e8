import RemoteAgent.Dial.Attempt
import RemoteAgent.Proofs.Dial.Journal
import RemoteAgent.Proofs.Stream.Run

/-! # What attempts do

An attempt prepares one command line, starts at most one process of the agent, and closes the
connection to it unless the greeting succeeds. Its failures are never those of a reconnection.
-/

namespace RemoteAgent.Dial

open Effect StreamMachine

variable {ω κ : Type}

inductive GreetingFailure (own : Version) : DialError → Prop where

  | handshake (cause : ProtocolError) : GreetingFailure own (.handshake cause)

  | versionMismatch (remote : Version) : GreetingFailure own (.versionMismatch remote own)

namespace Greeting

/-- The client's version stays what it is, and a greeting that is over has failed in one of the two
ways if it has failed. -/
def Keeps (own : Version) : Greeting → Prop
  | receiving v _ => v = own
  | sending _ => True
  | done result => ∀ cause, result = .error cause → GreetingFailure own cause

theorem keeps_afterSending (own : Version) (state : Sending) : Keeps own (afterSending state) := by
  unfold afterSending
  split
  · intro cause h
    cases h
  · intro cause h
    cases h
    exact .handshake _
  · trivial

theorem keeps_afterReceiving (own : Version) (state : Receiving) :
    Keeps own (afterReceiving own state) := by
  unfold afterReceiving
  split
  · split
    · trivial
    · intro cause h
      cases h
      exact .versionMismatch _
  · intro cause h
    cases h
    exact .handshake _
  · rfl

theorem failure_of_finish {own : Version} {g : Greeting} {result : Except DialError Unit}
    (h : action g = .finish result) (hk : Keeps own g) {cause : DialError}
    (hr : result = .error cause) : GreetingFailure own cause := by
  subst hr
  rcases g with ⟨v, _ | ⟨cause | v⟩⟩ | ⟨_ | _ | ⟨cause | _⟩⟩ | result <;>
    simp only [action, Except.map, mapError_ok, mapError_error, StreamAction.finish.injEq,
      reduceCtorEq, Except.error.injEq] at h
  · exact h ▸ .handshake _
  · exact h ▸ .handshake _
  · exact hk _ h

end Greeting

theorem greet_failure {σ : Type} [ByteStream σ] (own : Version) (s : σ) {cause : DialError}
    (h : (greet own s).1 = .error cause) : GreetingFailure own cause := by
  have := run_result (σ := σ) (I := Greeting.Keeps own)
    (Q := fun result => ∀ cause, result = .error cause → GreetingFailure own cause)
    (fun ha hk _ hr => Greeting.failure_of_finish ha hk hr) ?_ ?_ ?_ (Greeting.start own) s rfl
  · exact this cause h
  · rintro (⟨v, _ | _⟩ | ⟨_ | _ | _⟩ | _) bytes next ha hk o <;>
      simp only [action, Greeting.action, StreamAction.write.injEq, reduceCtorEq] at ha
    obtain ⟨-, rfl⟩ := ha
    exact Greeting.keeps_afterSending _ _
  · rintro (⟨v, _ | _⟩ | ⟨_ | _ | _⟩ | _) next ha hk o <;>
      simp only [action, Greeting.action, StreamAction.flush.injEq, reduceCtorEq] at ha
    subst ha
    exact Greeting.keeps_afterSending _ _
  · rintro (⟨v, _ | _⟩ | ⟨_ | _ | _⟩ | _) limit next ha hk o <;>
      simp only [action, Greeting.action, StreamAction.read.injEq, reduceCtorEq] at ha
    obtain ⟨-, rfl⟩ := ha
    cases hk
    exact Greeting.keeps_afterReceiving _ _

section Attempts

variable (t : Transport ω κ) (s : Setting) (paths : PathSyntax) (w : World ω)

def agentLine : String :=
  Invocation.commandLine s.own paths s.config.agentLogLevel

/-- The ways an attempt goes: what it comes to, and the world after it. -/
inductive Attempted : Except FailedAttempt Connection → World ω → Prop where

  | unprepared {e : TransportError} {o : ω} :
      (t.command (agentLine s paths)).outcome w.outer = (.error e, o) →
      Attempted (.error (.final (.transport e))) (w.after o [.command (agentLine s paths)])

  | unstarted {prepared : κ} {e : IoError} {o o' : ω} :
      (t.command (agentLine s paths)).outcome w.outer = (.ok prepared, o) →
      (t.start prepared).outcome o = (.error e, o') →
      Attempted (.error (.final (.connection (.io e))))
        (w.after o' [.command (agentLine s paths)])

  | greeted {prepared : κ} {process : Process} {c : Connection} {o o' : ω} :
      (t.command (agentLine s paths)).outcome w.outer = (.ok prepared, o) →
      (t.start prepared).outcome o = (.ok process, o') →
      greet s.own (Connection.new process s.config.killDelay) = (.ok (), c) →
      Attempted (.ok c) (w.after o' [.command (agentLine s paths), .agentStarted])

  | ungreeted {prepared : κ} {process : Process} {cause : DialError} {c : Connection} {o o' : ω} :
      (t.command (agentLine s paths)).outcome w.outer = (.ok prepared, o) →
      (t.start prepared).outcome o = (.ok process, o') →
      greet s.own (Connection.new process s.config.killDelay) = (.error cause, c) →
      Attempted (.error (.ofGreeting cause c.close.1.toOption c.close.2.errorOutput))
        (w.after o' [.command (agentLine s paths), .agentStarted,
          .agentClosed c.close.1.toOption])

theorem attempted :
    Attempted t s paths w ((attempt (World.transport t) s paths).outcome w).1
      ((attempt (World.transport t) s paths).outcome w).2 := by
  have hline : Invocation.commandLine s.own paths s.config.agentLogLevel = agentLine s paths := rfl
  simp only [attempt, outcome_bind, outcome_mapError, World.outcome_command, World.outcome_start,
    World.outcome_note, hline]
  rcases hc : (t.command (agentLine s paths)).outcome w.outer with ⟨e | prepared, o⟩
  · exact .unprepared hc
  simp only [mapError_ok, World.outer_after, World.after_after, List.append_nil]
  rcases hs : (t.start prepared).outcome o with ⟨e | process, o'⟩
  · exact .unstarted hc hs
  simp only [mapError_ok, World.outer_after, World.after_after, List.singleton_append]
  rcases hg : greet s.own (Connection.new process s.config.killDelay) with ⟨cause | _, c⟩
  · simpa [outcome_bind] using Attempted.ungreeted hc hs hg
  · exact .greeted hc hs hg

variable {t s paths w}

theorem outcome_attempt_ungreeted {prepared : κ} {process : Process} {cause : DialError}
    {c : Connection} {o o' : ω}
    (hc : (t.command (agentLine s paths)).outcome w.outer = (.ok prepared, o))
    (hs : (t.start prepared).outcome o = (.ok process, o'))
    (hg : greet s.own (Connection.new process s.config.killDelay) = (.error cause, c)) :
    (attempt (World.transport t) s paths).outcome w =
      (.error (.ofGreeting cause c.close.1.toOption c.close.2.errorOutput),
        w.after o' [.command (agentLine s paths), .agentStarted,
          .agentClosed c.close.1.toOption]) := by
  have h := attempted t s paths w
  generalize (attempt (World.transport t) s paths).outcome w = x at h
  obtain ⟨r, w'⟩ := x
  cases h with
  | unprepared hc' => cases hc.symm.trans hc'
  | unstarted hc' hs' =>
    cases hc.symm.trans hc'
    cases hs.symm.trans hs'
  | greeted hc' hs' hg' =>
    cases hc.symm.trans hc'
    cases hs.symm.trans hs'
    cases hg.symm.trans hg'
  | ungreeted hc' hs' hg' =>
    cases hc.symm.trans hc'
    cases hs.symm.trans hs'
    cases hg.symm.trans hg'
    rfl

theorem outcome_attempt_greeted {prepared : κ} {process : Process} {c : Connection} {o o' : ω}
    (hc : (t.command (agentLine s paths)).outcome w.outer = (.ok prepared, o))
    (hs : (t.start prepared).outcome o = (.ok process, o'))
    (hg : greet s.own (Connection.new process s.config.killDelay) = (.ok (), c)) :
    (attempt (World.transport t) s paths).outcome w =
      (.ok c, w.after o' [.command (agentLine s paths), .agentStarted]) := by
  have h := attempted t s paths w
  generalize (attempt (World.transport t) s paths).outcome w = x at h
  obtain ⟨r, w'⟩ := x
  cases h with
  | unprepared hc' => cases hc.symm.trans hc'
  | unstarted hc' hs' =>
    cases hc.symm.trans hc'
    cases hs.symm.trans hs'
  | greeted hc' hs' hg' =>
    cases hc.symm.trans hc'
    cases hs.symm.trans hs'
    cases hg.symm.trans hg'
    rfl
  | ungreeted hc' hs' hg' =>
    cases hc.symm.trans hc'
    cases hs.symm.trans hs'
    cases hg.symm.trans hg'

theorem Attempted.journal {r : Except FailedAttempt Connection} {w' : World ω}
    (h : Attempted t s paths w r w') :
    ∃ o status, w' = w.after o [.command (agentLine s paths)] ∨
      w' = w.after o [.command (agentLine s paths), .agentStarted] ∨
      w' = w.after o [.command (agentLine s paths), .agentStarted, .agentClosed status] := by
  cases h with
  | unprepared => exact ⟨_, none, .inl rfl⟩
  | unstarted => exact ⟨_, none, .inl rfl⟩
  | greeted => exact ⟨_, none, .inr (.inl rfl)⟩
  | ungreeted => exact ⟨_, _, .inr (.inr rfl)⟩

theorem Attempted.error_ne_reconnect {failed : FailedAttempt} {w' : World ω}
    (h : Attempted t s paths w (.error failed) w') (e : DialError) :
    failed.error ≠ .reconnect e := by
  cases h with
  | unprepared => nofun
  | unstarted => nofun
  | ungreeted hc hs hg =>
    have hf := greet_failure s.own _ (congrArg Prod.fst hg)
    unfold FailedAttempt.ofGreeting
    split
    · nofun
    · split
      · split
        · cases hf <;> nofun
        · nofun
      · cases hf <;> nofun

/-- A version mismatch is final. -/
theorem Attempted.failure_of_versionMismatch {failure : Invocation.Failure} {remote own : Version}
    {w' : World ω} (h : Attempted t s paths w (.error ⟨failure, .versionMismatch remote own⟩) w') :
    failure = .other := by
  generalize hr : (Except.error ⟨failure, .versionMismatch remote own⟩ :
    Except FailedAttempt Connection) = r at h
  cases h with
  | unprepared => cases hr
  | unstarted => cases hr
  | greeted => cases hr
  | ungreeted =>
    unfold FailedAttempt.ofGreeting at hr
    split at hr
    · cases hr
      rfl
    next hne =>
      split at hr
      · split at hr
        · cases hr
          exact absurd rfl (hne _ _)
        · cases hr
      · cases hr
        exact absurd rfl (hne _ _)

end Attempts

end RemoteAgent.Dial
