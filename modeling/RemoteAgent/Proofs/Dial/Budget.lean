import Mathlib.Data.List.Nodup
import RemoteAgent.Proofs.Dial.Machine

/-! # What a dial can spend

The journal of a dial is read as the calls that its machine makes. Whatever becomes of each of them,
the agent is invoked at most three times, and all other calls are an installation followed by one
message, each of them made at most once and in this order.
-/

namespace RemoteAgent.Dial

open Effect Relation Platform

variable {ω κ : Type}

section Installing

/-- What an installation enters once the platform is known. -/
def installEvents (platform : Platform) (file : LocalFile) (name : String) : List Event :=
  [.message "Extracting agent...", .message "Copying agent...", .copy file name] ++
    ((if platform.os = "windows" then [] else [.command ("chmod 700 " ++ name)]) ++
      [.message "Installing agent...",
        .command (if platform.posix then "./" ++ name ++ " install" else name ++ " install")])

/-- Everything a dial may do beside invoking the agent, in order. -/
def sideEvents (platform : Platform) (file : LocalFile) (name : String) : List Event :=
  probeEvents ++ installEvents platform file name ++ [.message "Connecting to agent..."]

/-- Calls that an installation may make: some of those it consists of, each once and in order. -/
def IsInstallation (calls : List Event) : Prop :=
  ∃ platform file name, IsRemoteName platform.os name ∧
    calls.Sublist (probeEvents ++ installEvents platform file name)

variable (t : Transport ω κ) (p : Prompter ω) (s : Setting)

theorem flatMap_phases (platform : Platform) (file : LocalFile) (name : String) :
    (phases t p s platform file name).flatMap (·.events) = installEvents platform file name := by
  unfold phases installEvents
  split <;> rfl

theorem filter_isCall_probing {probing : List Event} (h : probing <+: probeEvents) :
    (probing.filter Event.isCall).Sublist probeEvents :=
  List.filter_sublist.trans h.sublist

theorem install_calls (w : World ω) :
    ∃ events, ((install t p s).outcome w).2.journal = w.journal ++ events ∧
      IsInstallation (events.filter Event.isCall) := by
  obtain ⟨o, probing, hpre, ⟨cause, -, ho⟩ | ⟨platform, -, hos, ho⟩⟩ := outcome_install t p s w
  · rw [ho]
    refine ⟨probing, rfl, ⟨"", "", false⟩, ⟨s.temporaryDirectory, none⟩, _,
      isRemoteName_remoteName _ s.freshId, ?_⟩
    exact (filter_isCall_probing hpre).trans (List.sublist_append_left _ _)
  · rw [ho]
    obtain ⟨events, hj, hperf⟩ := performs_installFor (w := w.after o probing) hos
      (remoteName platform.os s.freshId)
    refine ⟨probing ++ events, ?_, platform, extractedFile s platform w.temporaries, _,
      isRemoteName_remoteName _ s.freshId, ?_⟩
    · rw [hj, World.journal_after, List.append_assoc]
    · rw [List.filter_append]
      have := hperf.isPrefix
      rw [flatMap_phases] at this
      exact (filter_isCall_probing hpre).append this.sublist

theorem attempt_calls (paths : PathSyntax) (w : World ω) :
    ∃ events, ((attempt (World.transport t) s paths).outcome w).2.journal = w.journal ++ events ∧
      events.filter Event.isCall = [.command (agentLine s paths)] := by
  obtain ⟨o, status, h | h | h⟩ := (attempted t s paths w).journal <;> rw [h] <;>
    exact ⟨_, rfl, rfl⟩

end Installing

section Calls

/-- The calls that a dial may still make at a stage. It may end before it makes them. -/
inductive Tells (s : Setting) : Stage → List Event → Prop where

  | nothing (stage : Stage) : Tells s stage []

  | final (paths : PathSyntax) : Tells s (.attempting paths) [.command (agentLine s paths)]

  | wrongShell {calls : List Event} :
      Tells s (.attempting .windows) calls →
      Tells s (.attempting .posix) (.command (agentLine s .posix) :: calls)

  | missing {paths : PathSyntax} {calls : List Event} :
      Tells s (.installing paths) calls →
      Tells s (.attempting paths) (.command (agentLine s paths) :: calls)

  | installed {paths : PathSyntax} {calls calls' : List Event} :
      IsInstallation calls → Tells s (.announcing paths) calls' →
      Tells s (.installing paths) (calls ++ calls')

  | announced {paths : PathSyntax} {calls : List Event} :
      Tells s (.reconnecting paths) calls →
      Tells s (.announcing paths) (.message "Connecting to agent..." :: calls)

  | reconnected (paths : PathSyntax) : Tells s (.reconnecting paths) [.command (agentLine s paths)]

variable {t : Transport ω κ} {p : Prompter ω} {s : Setting}

theorem Tells.eq_nil {result : Except DialError Connection} {calls : List Event}
    (h : Tells s (.finished result) calls) : calls = [] := by
  cases h
  rfl

/-- A step makes the calls that come first at its stage. -/
theorem Step.tells {a b : Stage × World ω} (h : Step t p s a b) :
    ∃ events, b.2.journal = a.2.journal ++ events ∧
      ∀ calls, Tells s b.1 calls → Tells s a.1 (events.filter Event.isCall ++ calls) := by
  have hattempt : ∀ {paths r w w'}, (attempt (World.transport t) s paths).outcome w = (r, w') →
      ∃ events, w'.journal = w.journal ++ events ∧
        events.filter Event.isCall = [.command (agentLine s paths)] := by
    intro paths r w w' h
    have := attempt_calls t s paths w
    rwa [h] at this
  have hinstall : ∀ {r w w'}, (install t p s).outcome w = (r, w') →
      ∃ events, w'.journal = w.journal ++ events ∧ IsInstallation (events.filter Event.isCall) := by
    intro r w w' h
    have := install_calls t p s w
    rwa [h] at this
  cases h with
  | connected h | final h =>
    obtain ⟨events, hj, hc⟩ := hattempt h
    refine ⟨events, hj, fun calls h => ?_⟩
    rw [hc, h.eq_nil]
    exact .final _
  | wrongShell h =>
    obtain ⟨events, hj, hc⟩ := hattempt h
    refine ⟨events, hj, fun calls h => ?_⟩
    rw [hc]
    exact .wrongShell h
  | missing h =>
    obtain ⟨events, hj, hc⟩ := hattempt h
    refine ⟨events, hj, fun calls h => ?_⟩
    rw [hc]
    exact .missing h
  | uninstalled h =>
    obtain ⟨events, hj, hc⟩ := hinstall h
    refine ⟨events, hj, fun calls h => ?_⟩
    rw [h.eq_nil]
    exact .installed hc (.nothing _)
  | installed h =>
    obtain ⟨events, hj, hc⟩ := hinstall h
    exact ⟨events, hj, fun calls h => .installed hc h⟩
  | unannounced =>
    refine ⟨_, rfl, fun calls h => ?_⟩
    rw [h.eq_nil]
    exact .announced (.nothing _)
  | announced => exact ⟨_, rfl, fun calls h => .announced h⟩
  | reconnected h | unreconnected h =>
    obtain ⟨events, hj, hc⟩ := hattempt h
    refine ⟨events, hj, fun calls h => ?_⟩
    rw [hc, h.eq_nil]
    exact .reconnected _

theorem tells_of_reaches {a b : Stage × World ω} (h : ReflTransGen (Step t p s) a b) :
    ∃ events, b.2.journal = a.2.journal ++ events ∧ Tells s a.1 (events.filter Event.isCall) := by
  induction h using ReflTransGen.head_induction_on with
  | refl => exact ⟨[], (List.append_nil _).symm, .nothing _⟩
  | head hstep _ ih =>
    obtain ⟨first, hfirst, htells⟩ := hstep.tells
    obtain ⟨rest, hrest, hcalls⟩ := ih
    refine ⟨first ++ rest, ?_, ?_⟩
    · rw [hrest, hfirst, List.append_assoc]
    · rw [List.filter_append]
      exact htells _ hcalls

end Calls

section Lines

variable (s : Setting)

theorem agentLine_eq (paths : PathSyntax) :
    agentLine s paths = ".tether" ++ (paths.separator ++ ("agents" ++ (paths.separator ++
      (s.own.text ++ (paths.separator ++ ("tether-agent" ++ (" endpoint --log-level=" ++
        s.config.agentLogLevel))))))) := by
  change ".tether" ++ paths.separator ++ "agents" ++ paths.separator ++ s.own.text ++
    paths.separator ++ "tether-agent" ++ " endpoint --log-level=" ++ s.config.agentLogLevel = _
  simp only [String.append_assoc]

theorem agentLine_ne : agentLine s .windows ≠ agentLine s .posix := by
  rw [agentLine_eq, agentLine_eq, Ne, String.append_right_inj]
  intro h
  have hfirst := congrArg (·.toList.head?) h
  simp only [String.toList_append] at hfirst
  cases hfirst

/-- The syntax of an event that invokes the agent. -/
def invocation? : Event → Option PathSyntax
  | .command line =>
    if line = agentLine s .posix then some .posix
    else if line = agentLine s .windows then some .windows
    else none
  | _ => none

/-- The syntaxes of the invocations among calls, in order. -/
def invocations (calls : List Event) : List PathSyntax :=
  calls.filterMap (invocation? s)

def sideCalls (calls : List Event) : List Event :=
  calls.filter fun e => (invocation? s e).isNone

@[simp] theorem invocation?_agentLine (paths : PathSyntax) :
    invocation? s (.command (agentLine s paths)) = some paths := by
  cases paths with
  | posix => simp [invocation?]
  | windows => simp [invocation?, agentLine_ne]

theorem exists_agentLine (paths : PathSyntax) :
    ∃ rest, (agentLine s paths).toList = '.' :: 't' :: rest := by
  rw [agentLine_eq, String.toList_append]
  exact ⟨_, rfl⟩

theorem invocation?_eq_none {line : String} (h : ¬ ∃ rest, line.toList = '.' :: 't' :: rest) :
    invocation? s (.command line) = none := by
  simp only [invocation?]
  rw [if_neg, if_neg]
  · rintro rfl
    exact h (exists_agentLine s _)
  · rintro rfl
    exact h (exists_agentLine s _)

theorem invocation?_installEvents {platform : Platform} {file : LocalFile} {name : String}
    {e : Event} (hname : IsRemoteName platform.os name)
    (he : e ∈ probeEvents ++ installEvents platform file name) : invocation? s e = none := by
  obtain ⟨digits, -, -, rfl⟩ := hname
  simp only [probeEvents, installEvents, List.mem_append, List.mem_cons, List.not_mem_nil,
    or_false] at he
  rcases he with (rfl | rfl | rfl | rfl) | (rfl | rfl | rfl) | he | rfl | rfl
  case inr.inr.inl =>
    split at he
    · cases he
    · rw [List.mem_singleton] at he
      subst he
      apply invocation?_eq_none
      rintro ⟨rest, h⟩
      rw [String.toList_append] at h
      cases h
  case inr.inr.inr.inr =>
    apply invocation?_eq_none
    rintro ⟨rest, h⟩
    split at h <;> simp only [String.append_assoc, String.toList_append] at h <;> cases h
  all_goals rfl

@[simp] theorem invocations_cons_agentLine (paths : PathSyntax) (calls : List Event) :
    invocations s (.command (agentLine s paths) :: calls) = paths :: invocations s calls := by
  simp [invocations]

@[simp] theorem sideCalls_cons_agentLine (paths : PathSyntax) (calls : List Event) :
    sideCalls s (.command (agentLine s paths) :: calls) = sideCalls s calls := by
  simp [sideCalls]

theorem invocations_append (calls calls' : List Event) :
    invocations s (calls ++ calls') = invocations s calls ++ invocations s calls' :=
  List.filterMap_append

theorem sideCalls_append (calls calls' : List Event) :
    sideCalls s (calls ++ calls') = sideCalls s calls ++ sideCalls s calls' :=
  List.filter_append _ _

theorem IsInstallation.invocations_eq_nil {calls : List Event} (h : IsInstallation calls) :
    invocations s calls = [] := by
  obtain ⟨platform, file, name, hname, hsub⟩ := h
  rw [invocations, List.filterMap_eq_nil_iff]
  exact fun e he => invocation?_installEvents s hname (hsub.subset he)

end Lines

section Bounds

/-- Calls made of an installation and the message that follows it. -/
def AreSideCalls (calls : List Event) : Prop :=
  ∃ platform file name, IsRemoteName platform.os name ∧
    calls.Sublist (sideEvents platform file name)

def Event.isCopy : Event → Bool
  | .copy _ _ => true
  | _ => false

/-- How the agent may still be invoked at a stage. -/
def Stage.MayInvoke : Stage → List PathSyntax → Prop
  | attempting .posix, invoked =>
    invoked <+: [.posix, .posix] ∨ invoked <+: [.posix, .windows, .windows]
  | attempting .windows, invoked => invoked <+: [.windows, .windows]
  | installing paths, invoked | announcing paths, invoked | reconnecting paths, invoked =>
    invoked <+: [paths]
  | finished _, invoked => invoked = []

/-- What else may still be called at a stage. -/
def Stage.MayCall : Stage → List Event → Prop
  | attempting _, calls | installing _, calls => AreSideCalls calls
  | announcing _, calls => calls.Sublist [.message "Connecting to agent..."]
  | reconnecting _, calls | finished _, calls => calls = []

variable {s : Setting}

theorem Tells.mayInvoke {stage : Stage} {calls : List Event} (h : Tells s stage calls) :
    stage.MayInvoke (invocations s calls) := by
  induction h with
  | nothing stage =>
    rcases stage with (_ | _) | _ | _ | _ | _ <;> simp [invocations, Stage.MayInvoke]
  | final paths => cases paths <;> simp [invocations, Stage.MayInvoke]
  | wrongShell _ ih =>
    rw [invocations_cons_agentLine]
    exact .inr ((List.prefix_cons_inj _).2 ih)
  | @missing paths calls _ ih =>
    rw [invocations_cons_agentLine]
    cases paths with
    | posix => exact .inl ((List.prefix_cons_inj _).2 ih)
    | windows => exact (List.prefix_cons_inj _).2 ih
  | installed hc _ ih =>
    rw [invocations_append, hc.invocations_eq_nil]
    exact ih
  | announced _ ih => exact ih
  | reconnected paths => simp [invocations, Stage.MayInvoke]

theorem areSideCalls_nil (s : Setting) : AreSideCalls [] :=
  ⟨⟨"", "", false⟩, ⟨s.temporaryDirectory, none⟩, _, isRemoteName_remoteName _ s.freshId,
    List.nil_sublist _⟩

theorem Tells.mayCall {stage : Stage} {calls : List Event} (h : Tells s stage calls) :
    stage.MayCall (sideCalls s calls) := by
  induction h with
  | nothing stage =>
    cases stage with
    | attempting | installing => exact areSideCalls_nil s
    | announcing => exact List.nil_sublist _
    | reconnecting | finished => rfl
  | final paths =>
    rw [sideCalls_cons_agentLine]
    exact areSideCalls_nil s
  | wrongShell _ ih | missing _ ih =>
    rw [sideCalls_cons_agentLine]
    exact ih
  | installed hc _ ih =>
    rw [sideCalls_append]
    obtain ⟨platform, file, name, hname, hsub⟩ := hc
    exact ⟨platform, file, name, hname, (List.filter_sublist.trans hsub).append ih⟩
  | @announced paths calls _ ih =>
    have : sideCalls s (.message "Connecting to agent..." :: calls) =
        [.message "Connecting to agent..."] := congrArg (List.cons _) ih
    rw [this]
    exact List.Sublist.refl _
  | reconnected paths => simp [sideCalls, Stage.MayCall]

/-- What a list of calls amounts to: at most three invocations of the agent, in the order of the
machine, and everything else at most once and in the order of an installation. -/
structure Bounded (s : Setting) (calls : List Event) : Prop where
  invocations : invocations s calls <+: [.posix, .posix] ∨
    invocations s calls <+: [.posix, .windows, .windows]
  sideCalls : AreSideCalls (sideCalls s calls)

theorem Tells.bounded {calls : List Event} (h : Tells s (.attempting .posix) calls) :
    Bounded s calls :=
  ⟨h.mayInvoke, h.mayCall⟩

theorem Bounded.length_invocations_le {calls : List Event} (h : Bounded s calls) :
    (Dial.invocations s calls).length ≤ 3 := by
  rcases h.invocations with h | h
  · exact Nat.le_succ_of_le h.length_le
  · exact h.length_le

theorem nodup_sideEvents {platform : Platform} {name : String} (file : LocalFile)
    (hname : IsRemoteName platform.os name) : (sideEvents platform file name).Nodup := by
  obtain ⟨digits, -, -, rfl⟩ := hname
  unfold sideEvents installEvents probeEvents
  split <;> split <;> simp <;> repeat' apply And.intro
  -- What is left are pairs of commands, which differ in their first two letters.
  all_goals
    intro h
    have := congrArg String.toList h
    simp only [String.append_assoc, String.toList_append] at this
    cases this

/-- Whatever is no invocation is called at most once. -/
theorem Bounded.count_le {calls : List Event} (h : Bounded s calls) {e : Event}
    (he : invocation? s e = none) : calls.count e ≤ 1 := by
  obtain ⟨platform, file, name, hname, hsub⟩ := h.sideCalls
  calc calls.count e
      = (Dial.sideCalls s calls).count e := (List.count_filter (by rw [he]; rfl)).symm
    _ ≤ (sideEvents platform file name).count e := hsub.count_le e
    _ ≤ 1 := List.nodup_iff_count_le_one.1 (nodup_sideEvents file hname) e

theorem Bounded.countP_isCopy_le {calls : List Event} (h : Bounded s calls) :
    calls.countP Event.isCopy ≤ 1 := by
  obtain ⟨platform, file, name, -, hsub⟩ := h.sideCalls
  have hside : ∀ e, e.isCopy = true → (invocation? s e).isNone = true := by
    intro e he
    cases e <;> first | rfl | cases he
  calc calls.countP Event.isCopy
      = (Dial.sideCalls s calls).countP Event.isCopy := by
        rw [Dial.sideCalls, List.countP_filter]
        refine List.countP_congr fun e _ => ?_
        have := hside e
        simp_all
    _ ≤ (sideEvents platform file name).countP Event.isCopy := hsub.countP_le
    _ = 1 := by
        unfold sideEvents installEvents probeEvents
        split <;> rfl

end Bounds

section Dialing

variable {t : Transport ω κ} {p : Prompter ω} {s : Setting}

/-- Only a reconnection ends in the failure of one, and it fails as an attempt does. -/
theorem Step.reconnect {a : Stage × World ω} {e : DialError} {w : World ω}
    (h : Step t p s a (.finished (.error (.reconnect e)), w)) (e' : DialError) :
    e ≠ .reconnect e' := by
  have hne : ∀ {paths failed w w'},
      (attempt (World.transport t) s paths).outcome w = (.error failed, w') →
      ∀ e, failed.error ≠ .reconnect e := by
    intro paths failed w w' h e
    have := attempted t s paths w
    rw [h] at this
    exact this.error_ne_reconnect e
  cases h with
  | final h => exact absurd rfl (hne h e)
  | uninstalled h => cases install_failure h
  | unreconnected h => exact hne h e'

theorem failure_of_versionMismatch {paths : PathSyntax} {w w' : World ω}
    {failure : Invocation.Failure} {remote own : Version}
    (h : (attempt (World.transport t) s paths).outcome w =
      (.error ⟨failure, .versionMismatch remote own⟩, w')) : failure = .other := by
  have := attempted t s paths w
  rw [h] at this
  exact this.failure_of_versionMismatch

variable (t p s)

/-- A dial follows the machine: what it comes to is what the machine finishes with. Each attempt is
one invocation in the syntax of its stage and calls nothing else, and a version mismatch is none of
the failures that have a next stage. So the agent is invoked at most three times, whatever else is
called is called at most once, in the order of an installation and the message after it, and the
failure of a reconnection is that of an attempt. -/
theorem dialTransport_machine (w : World ω) :
    (∀ r w', ReflTransGen (Step t p s) (.attempting .posix, w) (.finished r, w') ↔
      (dialTransport t p s).outcome w = (r, w')) ∧
    (∀ paths v, ∃ events,
      ((attempt (World.transport t) s paths).outcome v).2.journal = v.journal ++ events ∧
        events.filter Event.isCall = [.command (agentLine s paths)]) ∧
    (∀ paths failure remote own v v', (attempt (World.transport t) s paths).outcome v =
      (.error ⟨failure, .versionMismatch remote own⟩, v') → failure = .other) ∧
    (∃ events, ((dialTransport t p s).outcome w).2.journal = w.journal ++ events ∧
      Bounded s (events.filter Event.isCall) ∧
      (invocations s (events.filter Event.isCall)).length ≤ 3 ∧
      (events.filter Event.isCall).countP Event.isCopy ≤ 1 ∧
      ∀ e, invocation? s e = none → (events.filter Event.isCall).count e ≤ 1) ∧
    ∀ e, ((dialTransport t p s).outcome w).1 = .error (.reconnect e) → ∀ e', e ≠ .reconnect e' := by
  have hrun := endsAs_dialTransport (t := t) (p := p) (s := s) w
  refine ⟨fun r w' => ⟨fun h => ?_, fun h => ?_⟩, fun paths v => attempt_calls t s paths v,
    fun paths failure remote own v v' h => failure_of_versionMismatch h, ?_, fun e he e' => ?_⟩
  · obtain ⟨rfl, rfl⟩ := finished_unique hrun h
    rfl
  · unfold EndsAs at hrun
    rwa [h] at hrun
  · obtain ⟨events, hj, ht⟩ := tells_of_reaches hrun
    exact ⟨events, hj, ht.bounded, ht.bounded.length_invocations_le, ht.bounded.countP_isCopy_le,
      fun e he => ht.bounded.count_le he⟩
  · unfold EndsAs at hrun
    rw [he] at hrun
    rcases hrun.cases_tail with h | ⟨a, -, h⟩
    · cases h
    · exact h.reconnect e'

end Dialing

end RemoteAgent.Dial
