import RemoteAgent.Proofs.Dial.Upload

/-! # The two shells of a dial

What kind of shell the far side has is learned twice. The attempts show it to a dial, which keeps it
for the reconnection; probing shows it to the installation, which writes the installer's command
line by it. The two agree exactly if the Windows shell refused the first attempt whenever `uname`
gave no answer, and only then.
-/

namespace RemoteAgent.Dial

open Effect Relation Platform

variable {ω κ : Type}

/-- An event that runs an installer, as a POSIX shell would have it or as the Windows one would. -/
def IsInstaller (posix : Bool) (e : Event) : Prop :=
  ∃ os name, IsRemoteName os name ∧
    e = .command (if posix then "./" ++ name ++ " install" else name ++ " install")

/-- The installer and the last invocation among calls are written for the same kind of shell. -/
def ShellsAgree (s : Setting) (calls : List Event) : Prop :=
  ∀ posix e, e ∈ calls → IsInstaller posix e →
    ∀ paths ∈ (invocations s calls).getLast?, (posix = true ↔ paths = .posix)

namespace IsInstaller

variable {posix : Bool} {e : Event}

theorem isCall (h : IsInstaller posix e) : e.isCall = true := by
  obtain ⟨os, name, -, rfl⟩ := h
  rfl

theorem invocation?_eq_none (h : IsInstaller posix e) (s : Setting) : invocation? s e = none := by
  obtain ⟨os, name, hname, rfl⟩ := h
  let platform : Platform := ⟨os, "", posix⟩
  let file : LocalFile := ⟨s.temporaryDirectory, none⟩
  have hmem : Event.command (if posix then "./" ++ name ++ " install" else name ++ " install") ∈
      probeEvents ++ installEvents platform file name := by
    simp [installEvents, platform]
  exact invocation?_installEvents s hname hmem

theorem not_isAround (h : IsInstaller posix e) (s : Setting) : ¬ e.IsAround s := by
  intro haround
  rcases haround h.isCall with hinv | rfl
  · rw [h.invocation?_eq_none] at hinv
    cases hinv
  · obtain ⟨os, name, -, he⟩ := h
    cases he

theorem posix_unique {posix' : Bool} (h : IsInstaller posix e) (h' : IsInstaller posix' e) :
    posix = posix' := by
  obtain ⟨os, name, ⟨digits, -, -, rfl⟩, rfl⟩ := h
  obtain ⟨os', name', ⟨digits', -, -, rfl⟩, he⟩ := h'
  have := congrArg String.toList (Event.command.inj he)
  cases posix <;> cases posix' <;> try rfl
  all_goals
    simp only [String.append_assoc, String.toList_append, if_true, Bool.false_eq_true,
      if_false] at this
    cases this

/-- Of what an installation enters, only the last command runs the installer. -/
theorem posix_of_mem {platform : Platform} {file : LocalFile} {name : String}
    (h : IsInstaller posix e) (hname : IsRemoteName platform.os name)
    (he : e ∈ installEvents platform file name) : posix = platform.posix := by
  have hlast : IsInstaller platform.posix (.command
      (if platform.posix then "./" ++ name ++ " install" else name ++ " install")) :=
    ⟨_, _, hname, rfl⟩
  simp only [installEvents, List.mem_append, List.mem_cons, List.not_mem_nil, or_false] at he
  rcases he with (rfl | rfl | rfl) | he | rfl | rfl
  case inr.inl =>
    split at he
    · cases he
    · rw [List.mem_singleton] at he
      obtain ⟨os', name', ⟨digits, -, -, rfl⟩, he'⟩ := h
      have := congrArg String.toList (Event.command.inj (he.symm.trans he'))
      cases posix <;> simp only [String.append_assoc, String.toList_append, if_true,
        Bool.false_eq_true, if_false] at this <;> cases this
  case inr.inr.inr => exact h.posix_unique hlast
  all_goals
    obtain ⟨_, _, -, he⟩ := h
    cases he

theorem not_mem_probeEvents (h : IsInstaller posix e) : e ∉ probeEvents := by
  intro he
  obtain ⟨os, name, ⟨digits, -, -, rfl⟩, rfl⟩ := h
  simp only [probeEvents, List.mem_cons, List.not_mem_nil, reduceCtorEq, Event.command.injEq,
    or_false, false_or] at he
  rcases he with he | he <;> have := congrArg String.toList he <;> cases posix <;>
    simp only [String.append_assoc, String.toList_append, if_true, Bool.false_eq_true,
      if_false] at this <;> cases this

end IsInstaller

section Probing

variable {t : Transport ω κ} {p : Prompter ω} {s : Setting} {w : World ω}

variable (t p w) in
/-- The far side answers `uname`, and with a platform, when it is probed in a world. -/
def AnswersUname : Prop :=
  ∃ o platform o', (p.message "Probing endpoint (POSIX)...").outcome w.outer = (.ok (), o) ∧
    (ask t "uname -s -m" ofUname).outcome o = (.ok platform, o')

variable (t s w) in
/-- The Windows shell refuses the first attempt of a dial. -/
def RefusesPosix : Prop :=
  ∃ e w', (attempt (World.transport t) s .posix).outcome w = (.error ⟨.wrongShell, e⟩, w')

theorem Probed.posix_iff {platform : Platform} {w' : World ω} (h : Probed t p w (.ok platform) w') :
    platform.posix = true ↔ AnswersUname t p w := by
  cases h with
  | posix hm ha =>
    obtain ⟨output, -, ho⟩ := read_of_ask ha
    exact ⟨fun _ => ⟨_, _, _, hm, ha⟩, fun _ => posix_of_ofUname ho⟩
  | windows hm ha _ ha' =>
    obtain ⟨output, -, ho⟩ := read_of_ask ha'
    rw [(of_ofWindowsEnvironment ho).1]
    refine ⟨nofun, ?_⟩
    rintro ⟨o, platform', o', hm', huname⟩
    have hm'' := hm'.symm.trans hm
    cases hm''
    have := huname.symm.trans ha
    cases this

/-- The installer is written for the shell that probing found. -/
theorem posix_of_install {posix : Bool} {e : Event} {events : List Event}
    (hj : ((install t p s).outcome w).2.journal = w.journal ++ events) (he : e ∈ events)
    (h : IsInstaller posix e) : posix = true ↔ AnswersUname t p w := by
  have hp := probed t p w
  obtain ⟨o, probing, hpre, ⟨cause, -, ho⟩ | ⟨platform, hw, hos, ho⟩⟩ := outcome_install t p s w
  · rw [ho] at hj
    obtain rfl : probing = events := List.append_cancel_left hj
    exact absurd (hpre.subset he) h.not_mem_probeEvents
  · rw [hw] at hp
    rw [← hp.posix_iff]
    obtain ⟨performed, hj', hperf⟩ := performs_installFor (t := t) (p := p) (s := s)
      (w := w.after o probing) hos (remoteName platform.os s.freshId)
    rw [← ho, hj, World.journal_after, List.append_assoc] at hj'
    obtain rfl : events = probing ++ performed := List.append_cancel_left hj'
    rcases List.mem_append.1 he with he | he
    · exact absurd (hpre.subset he) h.not_mem_probeEvents
    · have hmem : e ∈ performed.filter Event.isCall := List.mem_filter.2 ⟨he, h.isCall⟩
      have hevents := hperf.isPrefix.subset hmem
      rw [flatMap_phases] at hevents
      rw [h.posix_of_mem (isRemoteName_remoteName _ _) hevents]

end Probing

section Dialing

variable {t : Transport ω κ} {p : Prompter ω} {s : Setting} {w v : World ω}

theorem isLate_of_reaches {a b : Stage × World ω} (h : ReflTransGen (Step t p s) a b)
    (ha : a.1.IsLate) : b.1.IsLate := by
  induction h with
  | refl => exact ha
  | tail _ hstep ih => exact hstep.isLate ih

theorem reaches_installing {paths : PathSyntax}
    (h : ReflTransGen (Step t p s) (.attempting .posix, w) (.installing paths, v)) :
    (paths = .posix ∧ ∃ e, (attempt (World.transport t) s .posix).outcome w =
      (.error ⟨.agentMissing, e⟩, v)) ∨
    (paths = .windows ∧ ∃ e e' w', (attempt (World.transport t) s .posix).outcome w =
      (.error ⟨.wrongShell, e⟩, w') ∧ (attempt (World.transport t) s .windows).outcome w' =
      (.error ⟨.agentMissing, e'⟩, v)) := by
  have hinstalling : ∀ {paths' w'},
      ReflTransGen (Step t p s) (.installing paths', w') (.installing paths, v) →
      paths = paths' ∧ w' = v := by
    intro paths' w' h
    rcases h.cases_head with h | ⟨b, hb, h⟩
    · cases h
      exact ⟨rfl, rfl⟩
    · obtain ⟨hstage, -⟩ := hb.installing
      exact (isLate_of_reaches h (by rcases hstage with hb | ⟨_, hb⟩ <;> rw [hb] <;> trivial)).elim
  have hfinished : ∀ {result w'},
      ¬ ReflTransGen (Step t p s) (.finished result, w') (.installing paths, v) :=
    fun h => isLate_of_reaches h trivial
  rcases h.cases_head with h | ⟨b, hb, h⟩
  · cases h
  cases hb with
  | connected | final => exact absurd h hfinished
  | missing ha =>
    obtain ⟨rfl, rfl⟩ := hinstalling h
    exact .inl ⟨rfl, _, ha⟩
  | wrongShell ha =>
    rcases h.cases_head with h | ⟨b, hb, h⟩
    · cases h
    cases hb with
    | connected | final => exact absurd h hfinished
    | missing ha' =>
      obtain ⟨rfl, rfl⟩ := hinstalling h
      exact .inr ⟨rfl, _, _, _, ha, ha'⟩

theorem attempt_invokes {paths : PathSyntax} {w w' : World ω} {r : Except FailedAttempt Connection}
    (h : (attempt (World.transport t) s paths).outcome w = (r, w')) :
    ∃ events, w'.journal = w.journal ++ events ∧
      invocations s (events.filter Event.isCall) = [paths] := by
  obtain ⟨events, hj, hc⟩ := attempt_calls t s paths w
  rw [h] at hj
  refine ⟨events, hj, ?_⟩
  rw [hc, invocations_cons_agentLine]
  rfl

/-- The last attempt before an installation has the syntax that the attempts came to, and that is
the Windows one exactly if the first attempt was refused. -/
theorem invocations_of_reaches {paths : PathSyntax} {before : List Event}
    (h : ReflTransGen (Step t p s) (.attempting .posix, w) (.installing paths, v))
    (hj : v.journal = w.journal ++ before) :
    (invocations s (before.filter Event.isCall)).getLast? = some paths ∧
      (paths = .windows ↔ RefusesPosix t s w) := by
  rcases reaches_installing h with ⟨rfl, e, ha⟩ | ⟨rfl, e, e', w', ha, ha'⟩
  · obtain ⟨events, hevents, hinv⟩ := attempt_invokes ha
    obtain rfl : before = events := List.append_cancel_left (hj.symm.trans hevents)
    refine ⟨by rw [hinv]; rfl, nofun, ?_⟩
    rintro ⟨e', w', hr⟩
    have := hr.symm.trans ha
    cases this
  · obtain ⟨first, hfirst, hinv⟩ := attempt_invokes ha
    obtain ⟨second, hsecond, hinv'⟩ := attempt_invokes ha'
    rw [hsecond, hfirst, List.append_assoc] at hj
    obtain rfl : first ++ second = before := List.append_cancel_left hj
    refine ⟨?_, fun _ => ⟨_, _, ha⟩, fun _ => rfl⟩
    rw [List.filter_append, invocations_append, hinv, hinv']
    rfl

variable (t p s w)

/-- In every dial the installer's command line is written for the shell that probing found: a POSIX
one if `uname` was answered, the Windows one otherwise. The invocations from the last attempt on are
written for the shell that the attempts found: the Windows one if it refused the first attempt, a
POSIX one otherwise. So the two agree exactly if one of them happened: `uname` was answered, or else
the first attempt was refused. -/
theorem installer_shell :
    ∃ before during after,
      ((dialTransport t p s).outcome w).2.journal = w.journal ++ (before ++ (during ++ after)) ∧
      ∀ posix e, e ∈ before ++ (during ++ after) → IsInstaller posix e →
        ∃ paths v, ReflTransGen (Step t p s) (.attempting .posix, w) (.installing paths, v) ∧
          v.journal = w.journal ++ before ∧
          ((install t p s).outcome v).2.journal = v.journal ++ during ∧ e ∈ during ∧
          (invocations s (before.filter Event.isCall)).getLast? = some paths ∧
          invocations s (after.filter Event.isCall) <+: [paths] ∧
          (posix = true ↔ AnswersUname t p v) ∧ (paths = .windows ↔ RefusesPosix t s w) ∧
          ((posix = true ↔ paths = .posix) ↔ (AnswersUname t p v ↔ ¬ RefusesPosix t s w)) := by
  obtain ⟨before, during, after, hj, haround, hduring⟩ :=
    exists_split (endsAs_dialTransport (t := t) (p := p) (s := s) w)
  refine ⟨before, during, after, hj, fun posix e he h => ?_⟩
  have hmem : e ∈ during := by
    simp only [List.mem_append] at he
    rcases he with he | he | he
    · exact absurd (haround e (List.mem_append_left _ he)) (h.not_isAround s)
    · exact he
    · exact absurd (haround e (List.mem_append_right _ he)) (h.not_isAround s)
  rcases hduring with rfl | ⟨paths, v, hreach, hv, -, hinstall, hafter⟩
  · cases hmem
  · obtain ⟨hlast, hrefuses⟩ := invocations_of_reaches hreach hv
    have huname := posix_of_install hinstall hmem h
    refine ⟨paths, v, hreach, hv, hinstall, hmem, hlast, hafter, huname, hrefuses, ?_⟩
    rw [← huname, ← hrefuses]
    cases paths <;> simp

end Dialing

section Cygwin

theorem greet_silent (own : Version) (errorOutput : List UInt8) (status : ExitStatus)
    (delay : Duration) :
    greet own (Connection.new (Rehearsal.Reply.process ⟨[], errorOutput, .exit, status⟩) delay) =
      (.error (.handshake (.truncated 0 12)),
        { Connection.new (Rehearsal.Reply.process ⟨[], errorOutput, .exit, status⟩) delay with
          reads := 1 }) := by
  rw [greet, StreamMachine.run_read rfl, StreamMachine.run_finish rfl]
  rfl

/-- What happens in an attempt: the shell cannot start the agent. -/
def cygwinAttempt (paths : PathSyntax) : List Event :=
  [.command (agentLine cygwinSetting paths), .agentStarted, .agentClosed (some (.exited 1))]

theorem outcome_attempt_cygwin {paths : PathSyntax} {errorOutput : List UInt8}
    (h : cygwinReply (agentLine cygwinSetting paths) = ⟨[], errorOutput, .exit, .exited 1⟩)
    (w : World Unit) :
    ∃ e, (attempt (World.transport cygwin) cygwinSetting paths).outcome w =
      (.error ⟨Invocation.classify (some 1) (ErrorOutput.capture [errorOutput]), e⟩,
        w.after () (cygwinAttempt paths)) := by
  have hc : (cygwin.command (agentLine cygwinSetting paths)).outcome w.outer =
      (.ok (Rehearsal.Reply.process ⟨[], errorOutput, .exit, .exited 1⟩), ()) := by
    rw [← h]
    rfl
  exact ⟨_, outcome_attempt_ungreeted hc rfl (greet_silent _ _ _ _)⟩

theorem refused_cygwin (w : World Unit) :
    ∃ e, (attempt (World.transport cygwin) cygwinSetting .posix).outcome w =
      (.error ⟨.wrongShell, e⟩, w.after () (cygwinAttempt .posix)) := by
  have hreply : cygwinReply (agentLine cygwinSetting .posix) =
      ⟨[], Text.encode "'.tether' is not recognized as an internal or external command,\r\n",
        .exit, .exited 1⟩ := by
    decide +kernel
  have hclass : Invocation.classify (some 1) (ErrorOutput.capture [Text.encode
      "'.tether' is not recognized as an internal or external command,\r\n"]) = .wrongShell := by
    decide +kernel
  rw [← hclass]
  exact outcome_attempt_cygwin hreply w

theorem missing_cygwin (w : World Unit) :
    ∃ e, (attempt (World.transport cygwin) cygwinSetting .windows).outcome w =
      (.error ⟨.agentMissing, e⟩, w.after () (cygwinAttempt .windows)) := by
  have hreply : cygwinReply (agentLine cygwinSetting .windows) =
      ⟨[], Text.encode "The system cannot find the path specified.\r\n", .exit, .exited 1⟩ := by
    decide +kernel
  have hclass : Invocation.classify (some 1) (ErrorOutput.capture [Text.encode
      "The system cannot find the path specified.\r\n"]) = .agentMissing := by
    decide +kernel
  rw [← hclass]
  exact outcome_attempt_cygwin hreply w

/-- A Windows shell with the `uname` of Cygwin on its path refuses the first attempt, so that the
agent is invoked with backslashes, before and after an installer that is run as in a POSIX shell. -/
theorem not_shellsAgree_cygwin :
    ¬ ShellsAgree cygwinSetting
      (((dialTransport cygwin (.silent Unit) cygwinSetting).outcome
        (World.start ())).2.journal.filter Event.isCall) := by
  obtain ⟨e, hrefused⟩ := refused_cygwin (World.start ())
  obtain ⟨e', hmissing⟩ := missing_cygwin ((World.start ()).after () (cygwinAttempt .posix))
  obtain ⟨v, events, hinstall, hj, hmem⟩ :=
    install_cygwin (((World.start ()).after () (cygwinAttempt .posix)).after ()
      (cygwinAttempt .windows))
  obtain ⟨e'', hagain⟩ := missing_cygwin (v.after () [.message "Connecting to agent..."])
  have hrun : ReflTransGen (Step cygwin (.silent Unit) cygwinSetting)
      (.attempting .posix, World.start ()) _ :=
    .head (.wrongShell hrefused) (.head (.missing hmissing) (.head (.installed hinstall)
      (.head (.announced rfl) (.single (.unreconnected hagain)))))
  obtain ⟨-, hw⟩ := finished_unique (endsAs_dialTransport _) hrun
  rw [hw, World.journal_after, List.filter_append]
  intro h
  have hinstaller : Event.command ("./" ++ cygwinName ++ " install") ∈
      (v.after () [.message "Connecting to agent..."]).journal.filter Event.isCall := by
    rw [World.journal_after, hj]
    exact List.mem_filter.2 ⟨List.mem_append_left _ (List.mem_append_right _ hmem), rfl⟩
  have hinvoked : invocations cygwinSetting ((cygwinAttempt .windows).filter Event.isCall) =
      [.windows] :=
    invocations_cons_agentLine _ _ _
  have hagree := h true _ (List.mem_append_left _ hinstaller)
    ⟨_, _, isRemoteName_remoteName _ _, rfl⟩ .windows (by
      rw [invocations_append, hinvoked]
      exact List.getLast?_concat)
  cases hagree.1 rfl

end Cygwin

end RemoteAgent.Dial
