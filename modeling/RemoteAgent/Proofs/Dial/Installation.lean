import RemoteAgent.Dial.Install
import RemoteAgent.Proofs.Bundle.Extract
import RemoteAgent.Proofs.Dial.Probe

/-! # What installing does

After the platform is known an installation is a fixed list of phases, performed in order until one
of them fails. What is copied is the platform's agent, whole, and every later command is about the
name under which it was copied.
-/

namespace RemoteAgent.Dial

open Effect

variable {ω κ : Type}

/-- Whether an event is a use of the prompter or of the transport. -/
def Event.isCall : Event → Bool
  | .message _ | .command _ | .copy _ _ => true
  | .agentStarted | .agentClosed _ | .fileCreated _ | .fileRemoved _ => false

/-- A phase: what the journal tells of it, and what it does in the world outside. -/
structure Phase (ω : Type) where
  events : List Event
  act : Effect ω DialError Unit

/-- Phases are performed in order, and the first one that fails ends them all. -/
inductive Performed : List (Phase ω) → ω → List Event → Except DialError Unit → ω → Prop where

  | done (o : ω) : Performed [] o [] (.ok ()) o

  | passed {phase : Phase ω} {phases : List (Phase ω)} {o o' o'' : ω} {events : List Event}
      {result : Except DialError Unit} :
      phase.act.outcome o = (.ok (), o') → Performed phases o' events result o'' →
      Performed (phase :: phases) o (phase.events ++ events) result o''

  | failed {phase : Phase ω} {phases : List (Phase ω)} {o o' : ω} {e : DialError} :
      phase.act.outcome o = (.error e, o') →
      Performed (phase :: phases) o phase.events (.error e) o'

namespace Performed

variable {phases phases' : List (Phase ω)} {o o' o'' : ω} {events events' : List Event}
  {result : Except DialError Unit}

theorem append_error {e : DialError} (h : Performed phases o events (.error e) o') :
    Performed (phases ++ phases') o events (.error e) o' := by
  generalize hr : Except.error e = r at h
  induction h with
  | done => cases hr
  | passed ha _ ih => exact .passed ha (ih hr)
  | failed ha =>
    cases hr
    exact .failed ha

theorem append (h : Performed phases o events (.ok ()) o')
    (h' : Performed phases' o' events' result o'') :
    Performed (phases ++ phases') o (events ++ events') result o'' := by
  generalize hr : Except.ok () = r at h
  induction h with
  | done => exact h'
  | passed ha _ ih =>
    rw [List.append_assoc]
    exact .passed ha (ih h' hr)
  | failed => cases hr

theorem exists_of_mem {e : Event} (h : Performed phases o events result o') (he : e ∈ events) :
    ∃ phase ∈ phases, e ∈ phase.events := by
  induction h with
  | done => cases he
  | passed _ _ ih =>
    rcases List.mem_append.1 he with he | he
    · exact ⟨_, List.mem_cons_self, he⟩
    · obtain ⟨phase, hp, he⟩ := ih he
      exact ⟨phase, List.mem_cons_of_mem _ hp, he⟩
  | failed => exact ⟨_, List.mem_cons_self, he⟩

theorem exists_of_error {e : DialError} (h : Performed phases o events (.error e) o') :
    ∃ phase ∈ phases, ∃ v v', phase.act.outcome v = (.error e, v') := by
  generalize hr : Except.error e = r at h
  induction h with
  | done => cases hr
  | passed _ _ ih =>
    obtain ⟨phase, hp, hv⟩ := ih hr
    exact ⟨phase, List.mem_cons_of_mem _ hp, hv⟩
  | failed ha =>
    cases hr
    exact ⟨_, List.mem_cons_self, _, _, ha⟩

theorem of_forall_ok (h : Performed phases o events result o')
    (hok : ∀ phase ∈ phases, ∀ v, (phase.act.outcome v).1 = .ok ()) :
    result = .ok () ∧ events = phases.flatMap (·.events) := by
  induction h with
  | done => exact ⟨rfl, rfl⟩
  | passed _ _ ih =>
    obtain ⟨hr, he⟩ := ih fun phase hp => hok phase (List.mem_cons_of_mem _ hp)
    exact ⟨hr, by rw [he, List.flatMap_cons]⟩
  | @failed _ _ v _ _ ha =>
    have := hok _ List.mem_cons_self v
    rw [ha] at this
    cases this

theorem isPrefix (h : Performed phases o events result o') :
    events <+: phases.flatMap (·.events) := by
  induction h with
  | done => exact ⟨[], rfl⟩
  | passed _ _ ih =>
    rw [List.flatMap_cons]
    exact (List.prefix_append_right_inj _).2 ih
  | failed =>
    rw [List.flatMap_cons]
    exact List.prefix_append _ _

end Performed

/-- A program performs phases: the journal tells their events, and the world outside and the result
are what the phases make of them. -/
def Performs (x : Effect (World ω) DialError Unit) (phases : List (Phase ω)) (w : World ω) : Prop :=
  ∃ events, (x.outcome w).2.journal = w.journal ++ events ∧
    Performed phases w.outer (events.filter Event.isCall) (x.outcome w).1 (x.outcome w).2.outer

namespace Performs

variable {x : Effect (World ω) DialError Unit} {phases phases' : List (Phase ω)} {w w' : World ω}

theorem bind {f : Unit → Effect (World ω) DialError Unit} (hx : Performs x phases w)
    (hf : ∀ w', x.outcome w = (.ok (), w') → Performs (f ()) phases' w') :
    Performs (x >>= f) (phases ++ phases') w := by
  obtain ⟨events, hj, hp⟩ := hx
  rcases hw : x.outcome w with ⟨e | _, w'⟩ <;> rw [hw] at hj hp
  · refine ⟨events, ?_, ?_⟩ <;> rw [outcome_bind_error hw]
    · exact hj
    · exact hp.append_error
  · obtain ⟨events', hj', hp'⟩ := hf w' hw
    refine ⟨events ++ events', ?_, ?_⟩ <;> rw [outcome_bind_ok hw]
    · rw [hj', hj, List.append_assoc]
    · rw [List.filter_append]
      exact hp.append hp'

theorem single {phase : Phase ω} (events : List Event)
    (hr : (x.outcome w).1 = (phase.act.outcome w.outer).1)
    (ho : (x.outcome w).2.outer = (phase.act.outcome w.outer).2)
    (hj : (x.outcome w).2.journal = w.journal ++ events)
    (he : events.filter Event.isCall = phase.events) : Performs x [phase] w := by
  refine ⟨events, hj, ?_⟩
  rw [hr, ho, he]
  rcases hp : phase.act.outcome w.outer with ⟨e | _, o⟩
  · exact .failed hp
  · have := Performed.passed hp (.done o)
    rwa [List.append_nil] at this

theorem noted {phase : Phase ω} (events : List Event)
    (h : x.outcome w =
      ((phase.act.outcome w.outer).1, w.after (phase.act.outcome w.outer).2 events))
    (he : events.filter Event.isCall = phase.events) : Performs x [phase] w :=
  .single events (by rw [h]) (by rw [h, World.outer_after]) (by rw [h, World.journal_after]) he

end Performs

section Phases

variable (t : Transport ω κ) (p : Prompter ω) (s : Setting)

theorem outcome_runLine (line : String) (o : ω) :
    (runLine t line).outcome o =
      ((((t.run line).outcome o).1.mapError .install).map fun _ => (),
        ((t.run line).outcome o).2) := by
  rw [runLine, outcome_bind, outcome_mapError]
  rcases (t.run line).outcome o with ⟨cause | output, o'⟩ <;> rfl

/-- A status message; one that is not delivered fails as such. -/
def telling (text : String) : Phase ω :=
  ⟨[.message text], tell p text⟩

theorem outcome_telling (text : String) (o : ω) :
    (telling p text).act.outcome o =
      (((p.message text).outcome o).1.mapError .prompt, ((p.message text).outcome o).2) := by
  rw [telling, tell, outcome_mapError]

/-- A command that is run to its end; its output does not matter. -/
def running (line : String) : Phase ω :=
  ⟨[.command line], runLine t line⟩

def copying (file : LocalFile) (name : String) : Phase ω :=
  ⟨[.copy file name], (t.copy file name).mapError .copy⟩

/-- Whether the agent for a platform can be taken out of the bundle. -/
def extraction (platform : Platform) : Except BundleError Unit := do
  let bundle ← s.config.resolvedBundlePath s.executable
  (Bundle.extract (s.readBundle bundle) platform.os platform.arch s.freshName []).1

def extracting (platform : Platform) : Phase ω :=
  ⟨[], Effect.ofExcept ((extraction s platform).mapError .extract)⟩

/-- The phases for a platform once it is known: `file` is copied to `name`. -/
def phases (platform : Platform) (file : LocalFile) (name : String) : List (Phase ω) :=
  [telling p "Extracting agent...", extracting s platform] ++
    ([telling p "Copying agent...", copying t file name] ++
      ((if platform.os = "windows" then [] else [running t ("chmod 700 " ++ name)]) ++
        [telling p "Installing agent...",
          running t (if platform.posix then "./" ++ name ++ " install" else name ++ " install")]))

inductive InstallFailure : DialError → Prop where

  | prompt (cause : PromptError) : InstallFailure (.prompt cause)

  | probe (cause : ProbeError) : InstallFailure (.probe cause)

  | extract (cause : BundleError) : InstallFailure (.extract cause)

  | copy (cause : TransportError) : InstallFailure (.copy cause)

  | install (cause : TransportError) : InstallFailure (.install cause)

variable {t p s}

theorem failure_of_mem_phases {platform : Platform} {file : LocalFile} {name : String}
    {phase : Phase ω} (hp : phase ∈ phases t p s platform file name) {e : DialError} {o o' : ω}
    (h : phase.act.outcome o = (.error e, o')) : InstallFailure e := by
  have hrun : ∀ {line}, (running t line).act.outcome o = (.error e, o') → InstallFailure e := by
    intro line h
    have hrun := (outcome_runLine t line o).symm.trans h
    rcases hr : (t.run line).outcome o with ⟨cause | output, v⟩ <;> rw [hr] at hrun <;> cases hrun
    exact .install cause
  simp only [phases, List.mem_append, List.mem_cons, List.not_mem_nil, or_false] at hp
  rcases hp with (rfl | rfl) | (rfl | rfl) | hp | rfl | rfl
  · obtain ⟨cause, -, rfl⟩ := exists_of_mapError h
    exact .prompt cause
  · rw [extracting, outcome_ofExcept] at h
    rcases hx : extraction s platform with cause | _ <;> rw [hx] at h <;> cases h
    exact .extract cause
  · obtain ⟨cause, -, rfl⟩ := exists_of_mapError h
    exact .prompt cause
  · obtain ⟨cause, -, rfl⟩ := exists_of_mapError h
    exact .copy cause
  · split at hp
    · cases hp
    · rw [List.mem_singleton] at hp
      exact hrun (hp ▸ h)
  · obtain ⟨cause, -, rfl⟩ := exists_of_mapError h
    exact .prompt cause
  · exact hrun h

end Phases

section Agents

variable (s : Setting) (platform : Platform)

/-- A local file holds the agent for a platform: it exists, and its bytes are those of the first
entry of the configured bundle that bears the platform's name. -/
def HoldsAgent (file : LocalFile) : Prop :=
  ∃ bundle bytes entry extracted,
    s.config.resolvedBundlePath s.executable = .ok bundle ∧ s.readBundle bundle = .ok bytes ∧
      Bundle.IsFirstBearing (Tar.contents (Gzip.decompress bytes))
        (platform.os ++ "_" ++ platform.arch) entry ∧
      entry.data.length = entry.size ∧ file.file = some extracted ∧ extracted.content = entry.data

def afterExtraction (d : TemporaryDirectory) : TemporaryDirectory :=
  match s.config.resolvedBundlePath s.executable with
  | .ok bundle =>
    (Bundle.extract (s.readBundle bundle) platform.os platform.arch s.freshName d).2
  | .error _ => d

/-- The file that is copied, given the temporary directory before the extraction. -/
def extractedFile (d : TemporaryDirectory) : LocalFile where
  path := s.temporaryDirectory.join s.freshName
  file := (afterExtraction s platform d).find? s.freshName

variable {s platform}

theorem extraction_eq {bundle : Path} (h : s.config.resolvedBundlePath s.executable = .ok bundle) :
    extraction s platform =
      (Bundle.extract (s.readBundle bundle) platform.os platform.arch s.freshName []).1 := by
  rw [extraction, h]
  rfl

theorem holdsAgent_extractedFile {d : TemporaryDirectory} (hd : d.find? s.freshName = none)
    (h : extraction s platform = .ok ()) : HoldsAgent s platform (extractedFile s platform d) := by
  unfold extraction at h
  rcases hb : s.config.resolvedBundlePath s.executable with e | bundle <;> rw [hb] at h
  · cases h
  · have he : (Bundle.extract (s.readBundle bundle) platform.os platform.arch s.freshName d).1 =
        .ok () := (Bundle.extract_outcome []).trans h
    obtain ⟨bytes, entry, extracted, hr, hf, hl, hx, hc⟩ := Bundle.find?_extract he hd
    refine ⟨bundle, bytes, entry, extracted, hb, hr, hf, hl, ?_, hc⟩
    simpa only [extractedFile, afterExtraction, hb] using hx

variable (s platform)

theorem outcome_extractAgent (w : World ω) :
    ∃ events, events.filter Event.isCall = [] ∧
      (extractAgent s platform).outcome w =
        ((extraction s platform).mapError .extract,
          { w with temporaries := afterExtraction s platform w.temporaries }.after w.outer
            events) := by
  unfold extraction afterExtraction
  simp only [extractAgent, outcome_bind, outcome_ofExcept]
  rcases s.config.resolvedBundlePath s.executable with e | bundle
  · exact ⟨[], rfl, by simp [bind, Except.bind]⟩
  · simp only [mapError_ok, outcome_get, bind, Except.bind,
      Bundle.extract_outcome (d := []) w.temporaries]
    rcases Bundle.extract (s.readBundle bundle) platform.os platform.arch s.freshName
      w.temporaries with ⟨cause | _, d⟩
    · exact ⟨[], rfl, by simp [World.after]⟩
    · exact ⟨[.fileCreated s.freshName], rfl, rfl⟩

end Agents

section Programs

variable (t : Transport ω κ) (p : Prompter ω) (s : Setting) (platform : Platform) (w : World ω)

theorem outcome_tell (text : String) :
    (tell (World.prompter p) text).outcome w =
      (((telling p text).act.outcome w.outer).1,
        w.after ((telling p text).act.outcome w.outer).2 [.message text]) := by
  simp only [tell, telling, outcome_mapError, World.outcome_message]

theorem performs_tell (text : String) :
    Performs (tell (World.prompter p) text) [telling p text] w :=
  .noted [.message text] (outcome_tell p w text) rfl

theorem performs_extractAgent :
    Performs (extractAgent s platform) [extracting s platform] w := by
  obtain ⟨events, he, ho⟩ := outcome_extractAgent s platform w
  apply Performs.single events
  · simp only [ho, extracting, outcome_ofExcept]
  · simp only [ho, extracting, outcome_ofExcept, World.outer_after]
  · simp only [ho, World.journal_after]
  · exact he

theorem outcome_copy (file : LocalFile) (name : String) :
    (((World.transport t).copy file name).mapError DialError.copy).outcome w =
      (((copying t file name).act.outcome w.outer).1,
        w.after ((copying t file name).act.outcome w.outer).2 [.copy file name]) := by
  simp only [copying, outcome_mapError, World.outcome_copy]

theorem performs_copyAgent (name : String) :
    Performs (copyAgent (World.transport t) (World.prompter p) s name)
      ([telling p "Copying agent..."] ++ [copying t
        { path := s.temporaryDirectory.join s.freshName
          file := w.temporaries.find? s.freshName } name]) w := by
  refine (performs_tell p w _).bind fun w' hw => ?_
  rw [outcome_tell] at hw
  obtain ⟨-, rfl⟩ := Prod.mk.inj hw
  refine Performs.noted [.copy _ name] ?_ rfl
  rw [outcome_bind_ok (outcome_get _), outcome_copy]
  rfl

theorem performs_runLine (line : String) :
    Performs (runLine (World.transport t) line) [running t line] w := by
  refine Performs.noted [.command line] ?_ rfl
  simp only [running, outcome_runLine, World.outcome_run]

theorem outcome_deliverAgent (name : String) :
    ∃ d, (deliverAgent (World.transport t) (World.prompter p) s name).outcome w =
      (((copyAgent (World.transport t) (World.prompter p) s name).outcome w).1,
        { ((copyAgent (World.transport t) (World.prompter p) s name).outcome w).2 with
          temporaries := d }.after
            ((copyAgent (World.transport t) (World.prompter p) s name).outcome w).2.outer
            [.fileRemoved s.freshName]) := by
  simp only [deliverAgent, removeAgent, outcome_bind, outcome_attempt, outcome_modify,
    outcome_ofExcept, World.outcome_note]
  exact ⟨_, rfl⟩

theorem performs_deliverAgent (name : String) :
    Performs (deliverAgent (World.transport t) (World.prompter p) s name)
      ([telling p "Copying agent..."] ++ [copying t
        { path := s.temporaryDirectory.join s.freshName
          file := w.temporaries.find? s.freshName } name]) w := by
  obtain ⟨events, hj, hp⟩ := performs_copyAgent t p s w name
  obtain ⟨d, ho⟩ := outcome_deliverAgent t p s w name
  refine ⟨events ++ [.fileRemoved s.freshName], ?_, ?_⟩ <;> rw [ho]
  · rw [World.journal_after, ← List.append_assoc]
    exact congrArg (· ++ _) hj
  · rw [List.filter_append]
    simpa [Event.isCall] using hp

variable {t p s platform w}

theorem performs_launchInstaller (w : World ω)
    (hp : platform.os ≠ "windows" → platform.posix = true) (name : String) :
    Performs (launchInstaller (World.transport t) (World.prompter p) platform name)
      ((if platform.os = "windows" then [] else [running t (chmodLine name)]) ++
        ([telling p installMessage] ++ [running t (installLine platform.posix name)])) w := by
  have hlast : ∀ w' : World ω, Performs
      (do
        tell (World.prompter p) installMessage
        runLine (World.transport t) (installLine platform.posix name))
      ([telling p installMessage] ++ [running t (installLine platform.posix name)]) w' :=
    fun w' => (performs_tell p w' _).bind fun w'' _ => performs_runLine t w'' _
  unfold launchInstaller
  -- On Windows nothing is made executable; elsewhere the shell is a POSIX one.
  by_cases hos : platform.os = "windows"
  · rw [if_pos hos, if_neg fun h => h.2 hos]
    exact hlast w
  · rw [if_neg hos, if_pos ⟨hp hos, hos⟩]
    exact (performs_runLine t w _).bind fun w' _ => hlast w'

/-- Once the platform is known, the phases for it are what an installation performs. -/
theorem performs_installFor (hp : platform.os ≠ "windows" → platform.posix = true)
    (name : String) :
    Performs (installFor (World.transport t) (World.prompter p) s platform name)
      (phases t p s platform (extractedFile s platform w.temporaries) name) w := by
  change Performs _ ([telling p extractMessage] ++ ([extracting s platform] ++ (_ ++ (_ ++
    ([telling p installMessage] ++ [running t _]))))) w
  refine (performs_tell p w _).bind fun w₁ h₁ => ?_
  refine (performs_extractAgent s platform w₁).bind fun w₂ h₂ => ?_
  have hfile : extractedFile s platform w.temporaries =
      { path := s.temporaryDirectory.join s.freshName
        file := w₂.temporaries.find? s.freshName } := by
    obtain ⟨events, -, ho⟩ := outcome_extractAgent s platform w₁
    rw [outcome_tell] at h₁
    rw [ho] at h₂
    rw [← (Prod.mk.inj h₂).2, ← (Prod.mk.inj h₁).2]
    rfl
  rw [hfile]
  refine (performs_deliverAgent t p s w₂ name).bind fun w₃ _ => ?_
  exact performs_launchInstaller w₃ hp name

end Programs

section Names

def hexadecimalDigits : List Char :=
  "0123456789abcdef".toList

theorem length_hexDigits (n value : Nat) : (hexDigits n value).length = n := by
  induction n generalizing value with
  | zero => rfl
  | succ n ih => rw [hexDigits, List.length_append, ih, List.length_singleton]

theorem digitChar_mem (d : Fin 16) : Nat.digitChar d ∈ hexadecimalDigits := by
  revert d
  decide

theorem mem_hexDigits {n value : Nat} {c : Char} (h : c ∈ hexDigits n value) :
    c ∈ hexadecimalDigits := by
  induction n generalizing value with
  | zero => cases h
  | succ n ih =>
    rw [hexDigits, List.mem_append, List.mem_singleton] at h
    rcases h with h | rfl
    · exact ih h
    · exact digitChar_mem ⟨value % 16, Nat.mod_lt _ (by decide)⟩

/-- The names under which agents are copied: 32 digits follow the base name, and an extension
follows them on Windows. -/
def IsRemoteName (os name : String) : Prop :=
  ∃ digits : List Char, digits.length = 32 ∧ (∀ c ∈ digits, c ∈ hexadecimalDigits) ∧
    name = "tether-agent" ++ String.ofList digits ++ if os = "windows" then ".exe" else ""

theorem isRemoteName_remoteName (os : String) (id : Uuid) : IsRemoteName os (remoteName os id) := by
  refine ⟨hexDigits 32 id.toNat, length_hexDigits _ _, fun c => mem_hexDigits, ?_⟩
  unfold remoteName
  split
  · rfl
  · rw [String.append_empty]
    rfl

end Names

section Installations

variable (t : Transport ω κ) (p : Prompter ω) (s : Setting) (w : World ω)

/-- The ways an installation goes. A platform that cannot be found out ends it; else the phases for
the platform are performed, and any file copied holds the agent for it. -/
inductive Installed : Except DialError Unit → World ω → Prop where

  | unprobed {cause : ProbeError} {probing : List Event} {w' : World ω} :
      (Platform.probe (World.transport t) (World.prompter p)).outcome w = (.error cause, w') →
      w'.journal = w.journal ++ probing → probing <+: probeEvents →
      Installed (.error (.probe cause)) w'

  | performed {platform : Platform} {probing events : List Event} {file : LocalFile}
      {name : String} {result : Except DialError Unit} {w₁ w₂ : World ω} :
      (Platform.probe (World.transport t) (World.prompter p)).outcome w = (.ok platform, w₁) →
      w₁.journal = w.journal ++ probing → probing <+: probeEvents →
      w₂.journal = w₁.journal ++ events → IsRemoteName platform.os name →
      Performed (phases t p s platform file name) w₁.outer (events.filter Event.isCall) result
        w₂.outer →
      (∀ file' name', .copy file' name' ∈ events →
        file' = file ∧ name' = name ∧ HoldsAgent s platform file') →
      Installed result w₂

variable {t p s w}

theorem extraction_of_copy {platform : Platform} {file file' : LocalFile} {name name' : String}
    {o o' : ω} {events : List Event} {result : Except DialError Unit}
    (h : Performed (phases t p s platform file name) o events result o')
    (he : .copy file' name' ∈ events) :
    file' = file ∧ name' = name ∧ extraction s platform = .ok () := by
  have hcopy : file' = file ∧ name' = name := by
    obtain ⟨phase, hp, he⟩ := h.exists_of_mem he
    have hm : phase ∈ phases t p s platform file name := hp
    simp only [phases, List.mem_append, List.mem_cons, List.not_mem_nil, or_false] at hm
    rcases hm with (rfl | rfl) | (rfl | rfl) | hm | rfl | rfl <;>
      simp_all [telling, extracting, copying, running]
  refine ⟨hcopy.1, hcopy.2, ?_⟩
  unfold phases at h
  cases h with
  | failed => simp [telling] at he
  | passed _ h =>
    cases h with
    | failed => simp [telling, extracting] at he
    | passed hx =>
      simp only [extracting, outcome_ofExcept] at hx
      rcases hr : extraction s platform with cause | _
      · rw [hr] at hx
        cases hx
      · rfl

variable (t p s w)

/-- An installation probes first, and goes on with the platform that was found. -/
theorem outcome_install :
    ∃ o probing, probing <+: probeEvents ∧
      ((∃ cause, (Platform.probe (World.transport t) (World.prompter p)).outcome w =
          (.error cause, w.after o probing) ∧
        (install t p s).outcome w = (.error (.probe cause), w.after o probing)) ∨
      ∃ platform, (Platform.probe (World.transport t) (World.prompter p)).outcome w =
          (.ok platform, w.after o probing) ∧
        (platform.os ≠ "windows" → platform.posix = true) ∧
        (install t p s).outcome w =
          (installFor (World.transport t) (World.prompter p) s platform
            (remoteName platform.os s.freshId)).outcome (w.after o probing)) := by
  have hp := probed t p w
  unfold install installThrough
  rcases hw : (Platform.probe (World.transport t) (World.prompter p)).outcome w with
    ⟨cause | platform, w₁⟩ <;> rw [hw] at hp <;> obtain ⟨o, probing, rfl, hpre⟩ := hp.journal
  · refine ⟨o, probing, hpre, .inl ⟨cause, rfl, ?_⟩⟩
    rw [outcome_bind_error (e := .probe cause) (by rw [outcome_mapError, hw]; rfl)]
  · refine ⟨o, probing, hpre, .inr ⟨platform, rfl, hp.posix_of_os_ne, ?_⟩⟩
    rw [outcome_bind_ok (a := platform) (by rw [outcome_mapError, hw]; rfl)]

variable {t p s w}

theorem installed (hfresh : w.temporaries.find? s.freshName = none) :
    Installed t p s w ((install t p s).outcome w).1 ((install t p s).outcome w).2 := by
  obtain ⟨o, probing, hpre, ⟨cause, hw, ho⟩ | ⟨platform, hw, hos, ho⟩⟩ := outcome_install t p s w
  · rw [ho]
    exact .unprobed hw rfl hpre
  · rw [ho]
    obtain ⟨events, hj, hperf⟩ := performs_installFor (w := w.after o probing) hos
      (remoteName platform.os s.freshId)
    refine .performed hw rfl hpre hj (isRemoteName_remoteName _ _) hperf fun file' name' he => ?_
    obtain ⟨hf, hn, hx⟩ := extraction_of_copy hperf (List.mem_filter.2 ⟨he, rfl⟩)
    exact ⟨hf, hn, hf ▸ holdsAgent_extractedFile hfresh hx⟩

theorem install_failure {e : DialError} {w' : World ω}
    (h : (install t p s).outcome w = (.error e, w')) : InstallFailure e := by
  obtain ⟨o, probing, -, ⟨cause, -, ho⟩ | ⟨platform, -, hos, ho⟩⟩ := outcome_install t p s w
  · rw [ho] at h
    cases h
    exact .probe cause
  · obtain ⟨events, -, hperf⟩ := performs_installFor (t := t) (p := p) (s := s)
      (w := w.after o probing) hos (remoteName platform.os s.freshId)
    rw [← ho, h] at hperf
    obtain ⟨phase, hp, v, v', hv⟩ := hperf.exists_of_error
    exact failure_of_mem_phases hp hv

end Installations

end RemoteAgent.Dial
