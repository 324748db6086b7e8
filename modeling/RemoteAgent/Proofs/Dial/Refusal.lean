import RemoteAgent.Proofs.Dial.Payload
import RemoteAgent.Proofs.Dial.Shells

/-! # What a failed attempt says

An attempt fails in one of two ways once the process has started. If the process says a version that
does not agree, nothing else of it matters. If it says less than a version, its exit status and its
error output tell whether the agent is missing or the shell the wrong one. Only the first of these
makes a dial install the agent, and only the second makes it change its syntax.
-/

namespace RemoteAgent

/-- The status in which a process ends that is given nothing, if its output is read up to the end of
its input and nothing after it: its own if it does not wait for its reader and ends within a delay,
that of the kill otherwise. -/
def Process.statusWithin (p : Process) (delay : Duration) : ExitStatus :=
  if (p.output [] false).length + pipeCapacity < (p.output [] true).length then .killed
  else
    match p.ending [] true with
    | some e => if e.after.nanoseconds ≤ delay.nanoseconds then e.status else .killed
    | none => .killed

namespace Connection

variable {c : Connection} {p : Process}

/-- A connection that has not been written to, and from which all output has been read. -/
structure IsReadUp (c : Connection) : Prop where
  isOpen : c.IsOpen
  given : c.given = []
  taken : c.taken = (c.process.output [] false).length

theorem IsReadUp.close_fst (h : c.IsReadUp) :
    c.close.1 = .ok (c.process.statusWithin c.killDelay) := by
  have hpending : c.shutdown.pending.length =
      (c.process.output [] true).length - (c.process.output [] false).length := by
    simp [pending, output, shutdown, h.given, h.isOpen.cutoff, h.taken]
  have hblocked : c.shutdown.isBlocked = true ↔
      (c.process.output [] false).length + Process.pipeCapacity <
        (c.process.output [] true).length := by
    rw [isBlocked, decide_eq_true_iff, hpending]
    omega
  have hending : c.shutdown.process.ending c.shutdown.given true = c.process.ending [] true :=
    congrArg (c.process.ending · true) h.given
  unfold close Process.statusWithin waitFor endingWithin
  rw [if_neg (by simp [h.isOpen.status]), hending]
  by_cases hb : c.shutdown.isBlocked = true
  · rw [if_pos hb, if_pos (hblocked.1 hb)]
  · rw [if_neg hb, if_neg (hb ∘ hblocked.2)]
    cases c.process.ending [] true with
    | none => rfl
    | some e => by_cases hdelay : e.after.nanoseconds ≤ c.killDelay.nanoseconds <;>
        simp [Option.filter, hdelay]

theorem errorOutput_of_isSome (h : c.status.isSome) :
    c.errorOutput = ErrorOutput.capture c.process.errorOutput := by
  rw [errorOutput, if_pos (by rw [hasEnded, h, Bool.true_or])]

end Connection

namespace Dial

open Connection StreamMachine Version Effect Relation

section Greetings

variable {own : Version} {said received : List UInt8} {c : Connection}

/-- What a greeting comes to on a process that says these bytes before it is given anything: an end
that comes too early, or a whole version. -/
inductive Hears (own : Version) (said : List UInt8) : Greeting → Connection → Prop where

  | reading {received : List UInt8} {c : Connection} :
      received.length < wireSize → c.HasRead received → c.output = said → c.given = [] →
      Hears own said (.receiving own (.reading received)) c

  | short {c : Connection} : said.length < wireSize → c.taken = said.length → c.given = [] →
      Hears own said (.done (.error (.handshake (.truncated said.length wireSize)))) c

  | whole {m : Greeting} {c : Connection} {v : Version} :
      wireSize ≤ said.length → ofWire (said.take wireSize) = .ok v →
      (v.isCompatibleWith own = false → m = .done (.error (.versionMismatch v own))) →
      Hears own said m c

/-- A greeting that goes on after a whole version has accepted it. -/
theorem Hears.goOn {m m' : Greeting} {c' : Connection} (h : Hears own said m c)
    (hgoesOn : ∀ result, m ≠ .done result)
    (hheard : ∀ received, m ≠ .receiving own (.reading received)) : Hears own said m' c' := by
  cases h with
  | reading => exact absurd rfl (hheard _)
  | short => exact absurd rfl (hgoesOn _)
  | whole hle hv hdone => exact .whole hle hv fun h => absurd (hdone h) (hgoesOn _)

theorem hears_afterRead (hlength : received.length < wireSize) (hread : c.HasRead received)
    (hsaid : c.output = said) (hgiven : c.given = []) :
    Hears own said
      (.afterReceiving own (.afterRead received (c.read (wireSize - received.length)).1))
      (c.read (wireSize - received.length)).2 := by
  obtain ⟨more, hmore⟩ := exists_read (wireSize - received.length) c
  have hread' := hread.read hmore
  have hsaid' := (output_read (wireSize - received.length) c).trans hsaid
  have hgiven' := (given_read (wireSize - received.length) c).trans hgiven
  have hle := length_read_le hmore
  rw [hmore]
  by_cases hnil : more = []
  · subst hnil
    have hnone := buffer_append_pending_eq_nil (Nat.sub_pos_of_lt hlength) hmore
    have hall : received = said := by
      rw [← hsaid, hread.output_eq, hnone, List.append_nil]
    have hbuffer : (c.read (wireSize - received.length)).2.buffer = [] := by
      have hmoved := buffer_pending_read hmore
      rw [hnone, List.nil_append] at hmoved
      exact (List.append_eq_nil_iff.1 hmoved.symm).1
    subst hall
    refine .short hlength ?_ hgiven'
    rw [hread'.taken, hbuffer, List.append_nil, List.append_nil]
  rcases Nat.lt_or_ge (received ++ more).length wireSize with hlt | hge
  · rw [Receiving.afterRead_of_lt hnil hlt]
    exact .reading hlt hread' hsaid' hgiven'
  · rw [Receiving.afterRead_of_le hnil hge]
    have hwhole : (received ++ more).length = wireSize := by
      rw [List.length_append] at hge ⊢
      omega
    have hstarts : received ++ more <+: said := by
      rw [← hsaid']
      exact (List.prefix_append _ _).trans hread'.isPrefix
    have htake : said.take wireSize = received ++ more := by
      rw [← hwhole]
      exact (List.prefix_iff_eq_take.1 hstarts).symm
    obtain ⟨v, hv, -⟩ := exists_ofWire hge
    refine .whole (hwhole ▸ hstarts.length_le) (htake ▸ hv) fun hincompatible => ?_
    rw [hv, Greeting.afterReceiving, check, if_neg (by rw [hincompatible]; decide)]

/-- What has been heard when a greeting has failed or succeeded. -/
theorem hears_greet (own : Version) (process : Process) (delay : Duration) :
    ∃ m, Hears own (process.output [] false) m (greet own (Connection.new process delay)).2 ∧
      action m = .finish (greet own (Connection.new process delay)).1 := by
  refine run_induction (I := Hears own (process.output [] false))
    (Q := fun result c => ∃ m, Hears own (process.output [] false) m c ∧
      action m = .finish result)
    ?_ ?_ ?_ ?_ (Greeting.start own) (Connection.new process delay)
    (.reading (by decide) (hasRead_new process delay) rfl rfl)
  · exact fun {m _ _} ha h => ⟨m, h, ha⟩
  · intro m d bytes next ha h
    refine h.goOn ?_ ?_ <;> rintro _ rfl <;> cases ha
  · intro m d next ha h
    refine h.goOn ?_ ?_ <;> rintro _ rfl <;> cases ha
  · intro m d limit next ha h
    cases h with
    | reading hlength hread hsaid hgiven =>
      cases ha
      exact hears_afterRead hlength hread hsaid hgiven
    | short => cases ha
    | whole hle hv hdone =>
      refine .whole hle hv fun h => ?_
      rw [hdone h] at ha
      cases ha

theorem greet_mismatch {process : Process} {v : Version} (delay : Duration)
    (hle : wireSize ≤ (process.output [] false).length)
    (hv : ofWire ((process.output [] false).take wireSize) = .ok v)
    (h : v.isCompatibleWith own = false) :
    (greet own (Connection.new process delay)).1 = .error (.versionMismatch v own) := by
  obtain ⟨m, hears, ha⟩ := hears_greet own process delay
  cases hears with
  | reading => cases ha
  | short hlt => exact absurd hle (Nat.not_le.2 hlt)
  | whole _ hv' hdone =>
    cases hv.symm.trans hv'
    rw [hdone h] at ha
    exact (StreamAction.finish.inj ha).symm

theorem greet_short {process : Process} (own : Version) (delay : Duration)
    (hlt : (process.output [] false).length < wireSize) :
    (greet own (Connection.new process delay)).1 =
        .error (.handshake (.truncated (process.output [] false).length wireSize)) ∧
      (greet own (Connection.new process delay)).2.IsReadUp := by
  obtain ⟨m, hears, ha⟩ := hears_greet own process delay
  obtain ⟨hopen, hprocess⟩ :=
    isOpen_of_greet (Prod.eta (greet own (Connection.new process delay))).symm
  cases hears with
  | reading => cases ha
  | short _ htaken hgiven =>
    exact ⟨(StreamAction.finish.inj ha).symm, hopen, hgiven, by rw [hprocess, htaken]⟩
  | whole hle => exact absurd hle (Nat.not_le.2 hlt)

end Greetings

section Failures

/-- What a failure to start the agent means, told from its exit status and its error output. -/
inductive FailureOf (status : ExitStatus) (errorOutput : String) : Invocation.Failure → Prop where

  | agentMissing : status = .exited 126 ∨ status = .exited 127 →
      FailureOf status errorOutput .agentMissing

  | wrongShell : status ≠ .exited 126 → status ≠ .exited 127 →
      "is not recognized as an internal or external command".toList <:+: errorOutput.toList →
      FailureOf status errorOutput .wrongShell

  | pathMissing : status ≠ .exited 126 → status ≠ .exited 127 →
      ¬ "is not recognized as an internal or external command".toList <:+: errorOutput.toList →
      "The system cannot find the path specified".toList <:+: errorOutput.toList →
      FailureOf status errorOutput .agentMissing

  | other : status ≠ .exited 126 → status ≠ .exited 127 →
      ¬ "is not recognized as an internal or external command".toList <:+: errorOutput.toList →
      ¬ "The system cannot find the path specified".toList <:+: errorOutput.toList →
      FailureOf status errorOutput .other

theorem code?_eq_some_iff {status : ExitStatus} {n : Nat} :
    status.code? = some (n : Int) ↔ status = .exited n := by
  cases status with
  | exited code => rw [ExitStatus.code?, Option.some_inj, Int.natCast_inj, ExitStatus.exited.injEq]
  | signaled => exact iff_of_false nofun nofun

theorem failureOf_classify (status : ExitStatus) (errorOutput : String) :
    FailureOf status errorOutput (Invocation.classify status.code? errorOutput) := by
  have hcode : status.code? = some Invocation.notExecutableCode ∨
      status.code? = some Invocation.notFoundCode ↔ status = .exited 126 ∨ status = .exited 127 :=
    or_congr code?_eq_some_iff code?_eq_some_iff
  unfold Invocation.classify
  split
  next h => exact .agentMissing (hcode.1 h)
  next h =>
    obtain ⟨h126, h127⟩ := not_or.1 (mt hcode.2 h)
    split
    next h => exact .wrongShell h126 h127 (Text.occursIn_iff.1 h)
    next hrecognized =>
      have hrecognized := mt Text.occursIn_iff.2 hrecognized
      split
      next h => exact .pathMissing h126 h127 hrecognized (Text.occursIn_iff.1 h)
      next h => exact .other h126 h127 hrecognized (mt Text.occursIn_iff.2 h)

theorem ofGreeting_handshake (cause : ProtocolError) (status : ExitStatus) (errorOutput : String) :
    FailedAttempt.ofGreeting (.handshake cause) (some status) errorOutput =
      ⟨Invocation.classify status.code? errorOutput,
        if status = .exited 0 then .handshake cause
        else .agentFailed status.text (Text.trim errorOutput)⟩ := by
  simp only [FailedAttempt.ofGreeting, Option.bind_some, ExitStatus.isSuccess, decide_eq_true_eq]
  split <;> rfl

end Failures

variable {ω κ : Type} {t : Transport ω κ} {p : Prompter ω} {s : Setting} {w : World ω}

section Attempts

variable {paths : PathSyntax} {prepared : κ} {process : Process} {o o' : ω}

theorem attempt_mismatch {v : Version}
    (hc : (t.command (agentLine s paths)).outcome w.outer = (.ok prepared, o))
    (hs : (t.start prepared).outcome o = (.ok process, o'))
    (hle : wireSize ≤ (process.output [] false).length)
    (hv : ofWire ((process.output [] false).take wireSize) = .ok v)
    (h : v.isCompatibleWith s.own = false) :
    ((attempt (World.transport t) s paths).outcome w).1 =
      .error ⟨.other, .versionMismatch v s.own⟩ := by
  have hg : greet s.own (Connection.new process s.config.killDelay) =
      (.error (.versionMismatch v s.own), _) :=
    Prod.ext (greet_mismatch _ hle hv h) rfl
  rw [outcome_attempt_ungreeted hc hs hg]
  rfl

theorem attempt_short
    (hc : (t.command (agentLine s paths)).outcome w.outer = (.ok prepared, o))
    (hs : (t.start prepared).outcome o = (.ok process, o'))
    (hlt : (process.output [] false).length < wireSize) :
    ∃ failure,
      FailureOf (process.statusWithin s.config.killDelay)
        (ErrorOutput.capture process.errorOutput) failure ∧
      (attempt (World.transport t) s paths).outcome w =
        (.error ⟨failure,
          if process.statusWithin s.config.killDelay = .exited 0 then
            .handshake (.truncated (process.output [] false).length wireSize)
          else .agentFailed (process.statusWithin s.config.killDelay).text
            (Text.trim (ErrorOutput.capture process.errorOutput))⟩,
        w.after o' [.command (agentLine s paths), .agentStarted,
          .agentClosed (some (process.statusWithin s.config.killDelay))]) := by
  obtain ⟨hresult, hread⟩ := greet_short s.own s.config.killDelay hlt
  have hg : greet s.own (Connection.new process s.config.killDelay) = (_, _) :=
    Prod.ext hresult rfl
  have hhandle := handle_run (Greeting.start s.own) (Connection.new process s.config.killDelay)
  rw [← greet] at hhandle
  obtain ⟨hopen, hprocess, hdelay⟩ := isOpen_of_handle hhandle
  have hclose := hread.close_fst
  rw [hprocess, hdelay] at hclose
  obtain ⟨-, hstatus, hsome⟩ := hopen.close
  have herror : (greet s.own (Connection.new process s.config.killDelay)).2.close.2.errorOutput =
      ErrorOutput.capture process.errorOutput := by
    rw [errorOutput_of_isSome (hstatus ▸ hsome), process_close, hprocess]
  refine ⟨_, failureOf_classify _ _, ?_⟩
  rw [outcome_attempt_ungreeted hc hs hg, hclose, herror, Except.toOption, ofGreeting_handshake]

end Attempts

section Dials

variable (t s w) in
/-- The agent turns out to be missing, at the first attempt or at one in the other syntax. -/
def MissesAgent : Prop :=
  (∃ e v, (attempt (World.transport t) s .posix).outcome w = (.error ⟨.agentMissing, e⟩, v)) ∨
    ∃ e e' v v', (attempt (World.transport t) s .posix).outcome w = (.error ⟨.wrongShell, e⟩, v) ∧
      (attempt (World.transport t) s .windows).outcome v = (.error ⟨.agentMissing, e'⟩, v')

theorem missesAgent_of_reaches {paths : PathSyntax} {v : World ω}
    (h : ReflTransGen (Step t p s) (.attempting .posix, w) (.installing paths, v)) :
    MissesAgent t s w := by
  rcases reaches_installing h with ⟨-, e, ha⟩ | ⟨-, e, e', v', ha, ha'⟩
  · exact .inl ⟨e, v, ha⟩
  · exact .inr ⟨e, e', v', v, ha, ha'⟩

theorem refusesPosix_of_reaches {b : Stage × World ω} {events : List Event}
    (h : ReflTransGen (Step t p s) (.attempting .posix, w) b)
    (hj : b.2.journal = w.journal ++ events)
    (hwindows : .windows ∈ invocations s (events.filter Event.isCall)) : RefusesPosix t s w := by
  rcases h.cases_head with rfl | ⟨c, hc, h⟩
  · obtain rfl : events = [] := List.append_cancel_left (hj.symm.trans (List.append_nil _).symm)
    cases hwindows
  obtain ⟨rest, hrest, htells⟩ := tells_of_reaches h
  have hmay := htells.mayInvoke
  -- Unless the syntax is changed, the first attempt is followed by the same syntax or by none.
  have hagain : ∀ {r}, (attempt (World.transport t) s .posix).outcome w = (r, c.2) →
      invocations s (rest.filter Event.isCall) <+: [.posix] → RefusesPosix t s w := by
    intro r ha hstarts
    obtain ⟨first, hfirst, hinvoked⟩ := attempt_invokes ha
    rw [hrest, hfirst, List.append_assoc] at hj
    obtain rfl : first ++ rest = events := List.append_cancel_left hj
    rw [List.filter_append, invocations_append, hinvoked, List.mem_append] at hwindows
    rcases hwindows with hwindows | hwindows
    · cases List.mem_singleton.1 hwindows
    · cases List.mem_singleton.1 (hstarts.subset hwindows)
  cases hc with
  | connected ha | final ha => exact hagain ha (hmay ▸ List.nil_prefix)
  | missing ha => exact hagain ha hmay
  | wrongShell ha => exact ⟨_, _, ha⟩

end Dials

theorem isCompatibleWith_eq_false {v own : Version}
    (h : v.major ≠ own.major ∨ v.minor ≠ own.minor ∨ v.patch ≠ own.patch) :
    v.isCompatibleWith own = false := by
  unfold Version.isCompatibleWith
  rcases h with h | h | h <;> simp [h]

/-- What an attempt fails with is told by what the process has said: another version, whatever the
process ends with and complains of, or less than a version, and then the status and the captured
error output decide. A dial does nothing but attempts and the message after an installation unless
the agent is missing, and keeps to POSIX paths unless the shell is the wrong one. -/
theorem attempt_failure {paths : PathSyntax} {prepared : κ} {process : Process} {o o' : ω}
    (hc : (t.command (agentLine s paths)).outcome w.outer = (.ok prepared, o))
    (hs : (t.start prepared).outcome o = (.ok process, o')) :
    (∀ v, 12 ≤ (process.output [] false).length →
      ofWire ((process.output [] false).take 12) = .ok v →
      v.major ≠ s.own.major ∨ v.minor ≠ s.own.minor ∨ v.patch ≠ s.own.patch →
      ((attempt (World.transport t) s paths).outcome w).1 =
        .error ⟨.other, .versionMismatch v s.own⟩) ∧
    ((process.output [] false).length < 12 → ∃ failure,
      FailureOf (process.statusWithin s.config.killDelay)
        (ErrorOutput.capture process.errorOutput) failure ∧
      (attempt (World.transport t) s paths).outcome w =
        (.error ⟨failure,
          if process.statusWithin s.config.killDelay = .exited 0 then
            .handshake (.truncated (process.output [] false).length 12)
          else .agentFailed (process.statusWithin s.config.killDelay).text
            (Text.trim (ErrorOutput.capture process.errorOutput))⟩,
        w.after o' [.command (agentLine s paths), .agentStarted,
          .agentClosed (some (process.statusWithin s.config.killDelay))])) ∧
    ∀ p v, ∃ before during after,
      ((dialTransport t p s).outcome v).2.journal = v.journal ++ (before ++ (during ++ after)) ∧
      (∀ e ∈ before ++ after, e.IsAround s) ∧
      (during ≠ [] → MissesAgent t s v) ∧
      (.windows ∈ invocations s ((before ++ (during ++ after)).filter Event.isCall) →
        RefusesPosix t s v) := by
  refine ⟨fun v hle hv hdiffers => ?_, attempt_short hc hs, fun p v => ?_⟩
  · exact attempt_mismatch hc hs hle hv (isCompatibleWith_eq_false hdiffers)
  · have hrun := endsAs_dialTransport (t := t) (p := p) (s := s) v
    obtain ⟨before, during, after, hj, haround, hduring⟩ := exists_split hrun
    refine ⟨before, during, after, hj, haround, fun hne => ?_, refusesPosix_of_reaches hrun hj⟩
    obtain ⟨paths, _, hreach, -⟩ := hduring.resolve_left hne
    exact missesAgent_of_reaches hreach

section Replies

/-- A far side on which every command gets the same reply. -/
def replying (reply : Rehearsal.Reply) : Transport Unit Process where
  copy _ _ := pure ()
  command _ := pure reply.process
  start process := pure process

/-- An agent of another version that ends as if it had not been found, and says so. -/
def olderAgent : Rehearsal.Reply where
  output := (⟨0, 0, 9, none⟩ : Version).toWire
  errorOutput := Text.encode "'tether' is not recognized as an internal or external command,\r\n"
  mode := .exit
  status := .exited 127

/-- A process that stops one byte before a version would be there and does not end, after both of
the complaints of the Windows shell. -/
def stuckAgent : Rehearsal.Reply where
  output := Version.current.toWire.take 11
  errorOutput := Text.encode ("The system cannot find the path specified.\r\n" ++
    "'tether' is not recognized as an internal or external command,\r\n")
  mode := .hang
  status := .exited 0

theorem attempt_failure_replying :
    ((attempt (World.transport (replying olderAgent)) echoSetting .posix).outcome
      (World.start ())).1 = .error ⟨.other, .versionMismatch ⟨0, 0, 9, none⟩ Version.current⟩ ∧
    ((attempt (World.transport (replying stuckAgent)) echoSetting .posix).outcome
      (World.start ())).1 = .error ⟨.wrongShell, .agentFailed "signal: 9 (SIGKILL)"
        ("The system cannot find the path specified.\r\n" ++
          "'tether' is not recognized as an internal or external command,")⟩ := by
  have hcommand : ∀ reply, ((replying reply).command (agentLine echoSetting .posix)).outcome
      (World.start ()).outer = (.ok reply.process, ()) := fun _ => rfl
  constructor
  · have h := (attempt_failure (hcommand olderAgent) rfl).1 ⟨0, 0, 9, none⟩
    exact h (by decide) rfl (.inr (.inl (by decide)))
  · obtain ⟨failure, hfailure, h⟩ := (attempt_failure (hcommand stuckAgent) rfl).2.1 (by decide)
    have hrefused : "is not recognized as an internal or external command".toList <:+:
        (ErrorOutput.capture stuckAgent.process.errorOutput).toList :=
      Text.occursIn_iff.1 (by decide +kernel)
    have hstatus : stuckAgent.process.statusWithin echoSetting.config.killDelay = .killed := by
      decide +kernel
    rw [h, hstatus, if_neg (by decide)]
    rw [hstatus] at hfailure
    clear h
    cases hfailure with
    | agentMissing h => rcases h with h | h <;> cases h
    | pathMissing _ _ h | other _ _ h => exact absurd hrefused h
    | wrongShell =>
      have htext : ExitStatus.killed.text = "signal: 9 (SIGKILL)" := rfl
      have htrimmed : Text.trim (ErrorOutput.capture stuckAgent.process.errorOutput) =
          "The system cannot find the path specified.\r\n" ++
            "'tether' is not recognized as an internal or external command," := by
        decide +kernel
      rw [htext, htrimmed]

end Replies

end Dial

end RemoteAgent
