import RemoteAgent.Proofs.Dial.Budget
import RemoteAgent.Rehearsal.Reply

/-! # What reaches the far side

A dial comes to at most one installation, and everything around it only invokes the agent or
announces that. The temporary name is as fresh there as it was at the start, so what a dial copies
is what the installation copies: the agent for the platform that was found out.
-/

namespace RemoteAgent.Dial

open Effect Relation

variable {ω κ : Type} {t : Transport ω κ} {p : Prompter ω} {s : Setting}

/-- An event that is no part of an installation. -/
def Event.IsAround (s : Setting) (e : Event) : Prop :=
  e.isCall = true →
    (invocation? s e).isSome = true ∨ e = .message "Connecting to agent..."

theorem attempt_around {paths : PathSyntax} {w w' : World ω} {r : Except FailedAttempt Connection}
    (h : (attempt (World.transport t) s paths).outcome w = (r, w')) :
    ∃ events, w'.journal = w.journal ++ events ∧ w'.temporaries = w.temporaries ∧
      ∀ e ∈ events, e.IsAround s := by
  have ha := attempted t s paths w
  rw [h] at ha
  have hline : (Event.command (agentLine s paths)).IsAround s := by
    intro _
    rw [invocation?_agentLine]
    exact .inl rfl
  obtain ⟨o, status, rfl | rfl | rfl⟩ := ha.journal
  · exact ⟨_, rfl, rfl, by simpa using hline⟩
  · exact ⟨_, rfl, rfl, by simpa [hline] using nofun⟩
  · exact ⟨_, rfl, rfl, by simpa [hline] using ⟨nofun, nofun⟩⟩

/-- A step that is no installation leaves the temporary directory as it is. -/
theorem Step.around {a b : Stage × World ω} (h : Step t p s a b)
    (ha : ∀ paths, a.1 ≠ .installing paths) :
    ∃ events, b.2.journal = a.2.journal ++ events ∧ b.2.temporaries = a.2.temporaries ∧
      ∀ e ∈ events, e.IsAround s := by
  have hconnect : ∀ e ∈ [Event.message "Connecting to agent..."], e.IsAround s := by
    rintro e he -
    exact .inr (List.mem_singleton.1 he)
  cases h with
  | connected h | wrongShell h | missing h | final h | reconnected h | unreconnected h =>
    exact attempt_around h
  | uninstalled | installed => exact absurd rfl (ha _)
  | unannounced | announced => exact ⟨_, rfl, rfl, hconnect⟩

def Stage.IsLate : Stage → Prop
  | attempting _ | installing _ => False
  | announcing _ | reconnecting _ | finished _ => True

theorem Step.isLate {a b : Stage × World ω} (h : Step t p s a b) (ha : a.1.IsLate) :
    b.1.IsLate := by
  cases h <;> trivial

theorem Step.installing {paths : PathSyntax} {w : World ω} {b : Stage × World ω}
    (h : Step t p s (.installing paths, w) b) :
    (b.1 = .announcing paths ∨ ∃ result, b.1 = .finished result) ∧
      b.2 = ((install t p s).outcome w).2 := by
  cases h with
  | uninstalled h => exact ⟨.inr ⟨_, rfl⟩, (congrArg Prod.snd h).symm⟩
  | installed h => exact ⟨.inl rfl, (congrArg Prod.snd h).symm⟩

theorem around_of_isLate {a b : Stage × World ω} (h : ReflTransGen (Step t p s) a b)
    (ha : a.1.IsLate) :
    ∃ events, b.2.journal = a.2.journal ++ events ∧ ∀ e ∈ events, e.IsAround s := by
  induction h using ReflTransGen.head_induction_on with
  | refl => exact ⟨[], (List.append_nil _).symm, nofun⟩
  | @head a c hstep _ ih =>
    obtain ⟨first, hfirst, -, haround⟩ := hstep.around (by
      rintro paths hp
      rw [hp] at ha
      exact ha)
    obtain ⟨rest, hrest, haround'⟩ := ih (hstep.isLate ha)
    refine ⟨first ++ rest, ?_, ?_⟩
    · rw [hrest, hfirst, List.append_assoc]
    · intro e he
      rcases List.mem_append.1 he with he | he
      · exact haround e he
      · exact haround' e he

/-- After an installation the agent is invoked at most once more, in the syntax used before. -/
theorem around_of_installing {paths : PathSyntax} {w : World ω} {b c : Stage × World ω}
    (hstep : Step t p s (.installing paths, w) b) (h : ReflTransGen (Step t p s) b c) :
    ∃ after, c.2.journal = ((install t p s).outcome w).2.journal ++ after ∧
      (∀ e ∈ after, e.IsAround s) ∧
      invocations s (after.filter Event.isCall) <+: [paths] := by
  obtain ⟨hstage, hw⟩ := hstep.installing
  have hlate : b.1.IsLate := by
    rcases hstage with hb | ⟨result, hb⟩ <;> rw [hb] <;> trivial
  obtain ⟨after, hj, haround⟩ := around_of_isLate h hlate
  obtain ⟨events, hevents, htells⟩ := tells_of_reaches h
  obtain rfl : after = events := List.append_cancel_left (hj.symm.trans hevents)
  refine ⟨after, hw ▸ hj, haround, ?_⟩
  have hmay := htells.mayInvoke
  rcases hstage with hb | ⟨result, hb⟩ <;> rw [hb] at hmay
  · exact hmay
  · rw [hmay]
    exact List.nil_prefix

/-- A run consists of an installation, if there is one, and what is around it. -/
theorem exists_split {a b : Stage × World ω} (h : ReflTransGen (Step t p s) a b) :
    ∃ before during after, b.2.journal = a.2.journal ++ (before ++ (during ++ after)) ∧
      (∀ e ∈ before ++ after, e.IsAround s) ∧
      (during = [] ∨ ∃ paths w, ReflTransGen (Step t p s) a (.installing paths, w) ∧
        w.journal = a.2.journal ++ before ∧ w.temporaries = a.2.temporaries ∧
        ((install t p s).outcome w).2.journal = w.journal ++ during ∧
        invocations s (after.filter Event.isCall) <+: [paths]) := by
  induction h using ReflTransGen.head_induction_on with
  | refl => exact ⟨[], [], [], (List.append_nil _).symm, nofun, .inl rfl⟩
  | @head a c hstep hrest ih =>
    by_cases ha : ∃ paths, a.1 = .installing paths
    · obtain ⟨paths, ha⟩ := ha
      obtain ⟨stage, w⟩ := a
      cases ha
      obtain ⟨after, hafter, haround, hinv⟩ := around_of_installing hstep hrest
      obtain ⟨during, hduring, -⟩ := install_calls t p s w
      refine ⟨[], during, after, ?_, haround, .inr ⟨paths, w, .refl, ?_, rfl, hduring, hinv⟩⟩
      · rw [hafter, hduring, List.append_assoc]
        rfl
      · exact (List.append_nil _).symm
    · obtain ⟨first, hfirst, htemp, haround⟩ := hstep.around fun paths h => ha ⟨paths, h⟩
      obtain ⟨before, during, after, hj, haround', hduring⟩ := ih
      refine ⟨first ++ before, during, after, ?_, ?_, ?_⟩
      · simp only [hj, hfirst, List.append_assoc]
      · intro e he
        simp only [List.append_assoc, List.mem_append] at he haround'
        rcases he with he | he
        · exact haround e he
        · exact haround' e he
      · refine hduring.imp_right ?_
        rintro ⟨paths, w, hreach, hw, hwt, hi, hinv⟩
        exact ⟨paths, w, .head hstep hreach, by rw [hw, hfirst, List.append_assoc],
          hwt.trans htemp, hi, hinv⟩

section Cygwin

/-- What a Windows shell with the `uname` of Cygwin on its path replies to a command line. There is
no agent; whatever is neither the agent nor `uname` succeeds and says nothing. -/
def cygwinReply (line : String) : Rehearsal.Reply :=
  if line = ".tether/agents/0.1.0/tether-agent endpoint --log-level=info" then
    { output := [], mode := .exit, status := .exited 1
      errorOutput := Text.encode
        "'.tether' is not recognized as an internal or external command,\r\n" }
  else if line = ".tether\\agents\\0.1.0\\tether-agent endpoint --log-level=info" then
    { output := [], mode := .exit, status := .exited 1
      errorOutput := Text.encode "The system cannot find the path specified.\r\n" }
  else if line = "uname -s -m" then
    { output := Text.encode "CYGWIN_NT-10.0 x86_64\n", mode := .exit, status := .exited 0
      errorOutput := [] }
  else { output := [], mode := .exit, status := .exited 0, errorOutput := [] }

def cygwin : Transport Unit Process where
  copy _ _ := pure ()
  command line := pure (cygwinReply line).process
  start process := pure process

def cygwinSetting : Setting where
  config := { Config.default with bundlePath := some ⟨"tether-agents.tar.gz"⟩ }
  own := Version.current
  executable := ⟨"tether"⟩
  readBundle _ := .ok Bundle.emptyAgentBundle
  temporaryDirectory := ⟨"tmp"⟩
  freshName := "tether-agent"
  freshId := 0

def cygwinPlatform : Platform :=
  ⟨"windows", "amd64", true⟩

def cygwinName : String :=
  remoteName cygwinPlatform.os cygwinSetting.freshId

theorem ask_cygwin :
    (Platform.ask cygwin "uname -s -m" Platform.ofUname).outcome () = (.ok cygwinPlatform, ()) := by
  have hrun : (cygwin.run "uname -s -m").outcome () = (.ok "CYGWIN_NT-10.0 x86_64\n", ()) := rfl
  have hread : Platform.ofUname "CYGWIN_NT-10.0 x86_64\n" = .ok cygwinPlatform := rfl
  rw [Platform.outcome_ask, hrun, ← hread]
  rfl

theorem extraction_cygwin : extraction cygwinSetting cygwinPlatform = .ok () := by
  have hpath : cygwinSetting.config.resolvedBundlePath cygwinSetting.executable =
      .ok ⟨"tether-agents.tar.gz"⟩ := rfl
  rw [extraction_eq hpath]
  exact Bundle.extract_emptyAgentBundle _ _

theorem passed_cygwin {file : LocalFile} {phase : Phase Unit}
    (hp : phase ∈ phases cygwin (.silent Unit) cygwinSetting cygwinPlatform file
      cygwinName) (o : Unit) :
    (phase.act.outcome o).1 = .ok () := by
  simp only [phases, List.mem_append, List.mem_cons, List.not_mem_nil, or_false] at hp
  rcases hp with (rfl | rfl) | (rfl | rfl) | hp | rfl | rfl
  case inl.inr =>
    rw [extracting, outcome_ofExcept, extraction_cygwin]
    rfl
  case inr.inr.inl => cases hp
  all_goals rfl

theorem install_cygwin (w : World Unit) :
    ∃ v events, (install cygwin (.silent Unit) cygwinSetting).outcome w = (.ok (), v) ∧
      v.journal = w.journal ++ events ∧
      .command ("./" ++ cygwinName ++ " install") ∈ events := by
  obtain ⟨o, probing, -, ⟨cause, hw, -⟩ | ⟨platform, hw, hos, ho⟩⟩ :=
    outcome_install cygwin (.silent Unit) cygwinSetting w
  · rw [outcome_probe_posix rfl ask_cygwin] at hw
    cases hw
  · rw [outcome_probe_posix rfl ask_cygwin] at hw
    obtain ⟨hplatform, -⟩ := Prod.mk.inj hw
    cases hplatform
    change _ = (installFor (World.transport cygwin) (World.prompter (.silent Unit)) cygwinSetting
      cygwinPlatform cygwinName).outcome (w.after o probing) at ho
    obtain ⟨performed, hj, hperf⟩ := performs_installFor (t := cygwin) (p := .silent Unit)
      (s := cygwinSetting) (w := w.after o probing) hos cygwinName
    generalize (installFor (World.transport cygwin) (World.prompter (.silent Unit)) cygwinSetting
      cygwinPlatform cygwinName).outcome (w.after o probing) = x at ho hj hperf
    obtain ⟨r, v⟩ := x
    obtain ⟨hr, he⟩ := hperf.of_forall_ok fun phase hp v => passed_cygwin hp v
    cases hr
    refine ⟨v, probing ++ performed, ho, hj.trans (List.append_assoc _ _ _), ?_⟩
    refine List.mem_append_right _ (List.mem_of_mem_filter (p := Event.isCall) ?_)
    rw [he, flatMap_phases]
    simp [installEvents, cygwinPlatform]

end Cygwin

variable (t p s)

/-- What an installation does with its data, by itself or inside a dial: once the platform is known,
the agent for it is what is copied, and the commands after it name the copy. In a dial whatever is
done apart from one installation invokes the agent or announces that. -/
theorem install_deliversAgent {w : World ω} (hfresh : w.temporaries.find? s.freshName = none) :
    Installed t p s w ((install t p s).outcome w).1 ((install t p s).outcome w).2 ∧
    ∃ before during after,
      ((dialTransport t p s).outcome w).2.journal =
        w.journal ++ (before ++ (during ++ after)) ∧
      (∀ e ∈ before ++ after, e.IsAround s) ∧
      (during = [] ∨ ∃ v, v.journal = w.journal ++ before ∧
        ((install t p s).outcome v).2.journal = v.journal ++ during ∧
        Installed t p s v ((install t p s).outcome v).1 ((install t p s).outcome v).2) := by
  refine ⟨installed hfresh, ?_⟩
  obtain ⟨before, during, after, hj, haround, hduring⟩ := exists_split (endsAs_dialTransport w)
  refine ⟨before, during, after, hj, haround, hduring.imp_right ?_⟩
  rintro ⟨_, v, -, hv, hvt, hi, -⟩
  exact ⟨v, hv, hi, installed (hvt ▸ hfresh)⟩

theorem install_deliversAgent_cygwin :
    ((install cygwin (.silent Unit) cygwinSetting).outcome (World.start ())).1 = .ok () ∧
    (World.start ()).temporaries.find? cygwinSetting.freshName = none ∧
    Installed cygwin (.silent Unit) cygwinSetting (World.start ())
      ((install cygwin (.silent Unit) cygwinSetting).outcome (World.start ())).1
      ((install cygwin (.silent Unit) cygwinSetting).outcome (World.start ())).2 := by
  obtain ⟨v, events, h, -⟩ := install_cygwin (World.start ())
  refine ⟨?_, rfl, (install_deliversAgent cygwin (.silent Unit) cygwinSetting rfl).1⟩
  rw [h]

end RemoteAgent.Dial
