import RemoteAgent.Proofs.Dial.Congruence
import RemoteAgent.Proofs.Transport.Docker

/-! # One probe for all calls

However a container is used, by single calls or by a whole dial, it is probed once. What the probe
comes to is what every call goes by, also if it comes to nothing.
-/

namespace RemoteAgent

open Effect Relation

variable {ω κ : Type}

/-- A transport that has no part in what is remembered of a container. -/
def Transport.outside (t : Transport ω κ) : Transport (WithContainer ω) κ :=
  t.within WithContainer.outer fun w outer => { w with outer }

def Prompter.outside (p : Prompter ω) : Prompter (WithContainer ω) :=
  p.within WithContainer.outer fun w outer => { w with outer }

section Outside

variable (t : Transport ω κ) (p : Prompter ω) (w : WithContainer ω)

theorem outcome_copy_outside (file : LocalFile) (name : String) :
    (t.outside.copy file name).outcome w = (((t.copy file name).outcome w.outer).1,
      { w with outer := ((t.copy file name).outcome w.outer).2 }) :=
  outcome_within _ _ _ _

theorem outcome_command_outside (line : String) :
    (t.outside.command line).outcome w = (((t.command line).outcome w.outer).1,
      { w with outer := ((t.command line).outcome w.outer).2 }) :=
  outcome_within _ _ _ _

theorem outcome_start_outside (prepared : κ) :
    (t.outside.start prepared).outcome w = (((t.start prepared).outcome w.outer).1,
      { w with outer := ((t.start prepared).outcome w.outer).2 }) :=
  outcome_within _ _ _ _

theorem outcome_message_outside (text : String) :
    (p.outside.message text).outcome w = (((p.message text).outcome w.outer).1,
      { w with outer := ((p.message text).outcome w.outer).2 }) :=
  outcome_within _ _ _ _

end Outside

namespace Docker

open Dial

variable {d : Docker} {found : Except String ContainerProperties} {host : Host ω}
  {p : Prompter ω} {s : Setting}

theorem same_informed :
    (d.informed found host p).outside.Same (d.transport host p) (·.memory = some found) where
  copy file name := by
    rintro ⟨w, -⟩ rfl
    rw [SameAt, outcome_copy_outside]
    exact ⟨outcome_copy_some file name w, rfl⟩
  command line := by
    rintro ⟨w, -⟩ rfl
    rw [SameAt, outcome_command_outside]
    exact ⟨outcome_command_some line w, rfl⟩
  start hw hc := by
    rw [outcome_command_outside] at hc
    obtain ⟨-, rfl⟩ := Prod.mk.inj hc
    rw [SameAt, outcome_start_outside]
    exact ⟨outcome_within _ _ _ _, hw⟩

theorem keeps_outside {I : ω → Prop} (hp : p.Keeps I) : p.outside.Keeps (I ·.outer) := by
  intro text w hw
  rw [outcome_message_outside]
  exact hp text hw

theorem keeps_memory (m : ContainerMemory) : p.outside.Keeps (·.memory = m) := by
  intro text w hw
  rwa [outcome_message_outside]

section Uses

/-- One record continues another one with uses that are no part of a probe. -/
def Continues (d : Docker) (w v : Recorded ω) : Prop :=
  ∃ uses, v.uses = w.uses ++ uses ∧ ∀ u ∈ uses, d.IsOrdinary u

theorem Continues.trans {u v w : Recorded ω} (h : Continues d u v) (h' : Continues d v w) :
    Continues d u w := by
  obtain ⟨uses, huses, hordinary⟩ := h
  obtain ⟨uses', huses', hordinary'⟩ := h'
  refine ⟨uses ++ uses', ?_, List.forall_mem_append.2 ⟨hordinary, hordinary'⟩⟩
  rw [huses', huses, List.append_assoc]

theorem keeps_continues (w : WithContainer (Recorded ω)) :
    (d.informed found host.recorded p.recorded).outside.Keeps
      (fun v => Continues d w.outer v.outer) where
  copy file name v hv := by
    rw [outcome_copy_outside]
    exact hv.trans (adds_copy file name v.outer)
  command line v hv := by
    rw [outcome_command_outside]
    dsimp only
    rwa [(outcome_command d found host.recorded p.recorded line v.outer).1]
  start {line v v' c} hv hc := by
    rw [outcome_command_outside] at hc
    obtain ⟨hsame, hordinary⟩ := outcome_command d found host.recorded p.recorded line v.outer
    obtain ⟨hprepared, rfl⟩ := Prod.mk.inj hc
    rw [outcome_start_outside, hsame]
    exact hv.trans (adds_start host (fun _ => hordinary c hprepared) v.outer)

end Uses

section Dials

theorem dialTransport_some (w : World (WithContainer ω)) (v : ω) :
    (dialTransport (d.transport host p) p.outside s).outcome
        { w with outer := ⟨v, some found⟩ } =
      (dialTransport (d.informed found host p).outside p.outside s).outcome
        { w with outer := ⟨v, some found⟩ } :=
  (same_dialTransport same_informed (keeps_memory _) _ rfl).1

theorem dialTransport_none (w : World (WithContainer ω)) {v v' : ω}
    (h : (d.probe host).outcome v = (found, v')) :
    (dialTransport (d.transport host p) p.outside s).outcome { w with outer := ⟨v, none⟩ } =
      (dialTransport (d.transport host p) p.outside s).outcome
        { w with outer := ⟨v', some found⟩ } :=
  outcome_dialTransport_congr (outcome_bind_congr (outcome_properties_none h) _)

/-- Where nothing could be found out about the container, a dial fails for that reason. -/
theorem dialTransport_error (m : String) (w : World (WithContainer ω)) :
    (dialTransport (d.informed (.error m) host p).outside p.outside s).outcome w =
      (.error (.transport (.container m)),
        w.after w.outer [.command (agentLine s .posix)]) := by
  have hcommand : ((d.informed (.error m) host p).outside.command (agentLine s .posix)).outcome
      w.outer = (.error (.container m), w.outer) := rfl
  have hattempt : (attempt (World.transport (d.informed (.error m) host p).outside) s
      .posix).outcome w =
      (.error (.final (.transport (.container m))),
        w.after w.outer [.command (agentLine s .posix)]) := by
    refine outcome_bind_error ?_ _
    rw [outcome_mapError, ← agentLine, World.outcome_command, hcommand]
    rfl
  obtain ⟨hr, hw⟩ := finished_unique (endsAs_dialTransport w)
    (.single (.final hattempt (by decide) (by decide)))
  exact Prod.ext hr hw

end Dials

/-- Calls and dials that use a container of which nothing was known. -/
structure ProbedOnce (d : Docker) (host : Host ω) (p : Prompter ω) (w : Recorded ω)
    (found : Except String ContainerProperties) (w' : Recorded ω) : Prop where
  probing : ∃ uses, w'.uses = w.uses ++ uses ∧ Probed d uses found
  /-- The first call probes; then all go as for one that has been told what that came to. -/
  calls : ∀ call calls,
    performAll (d.act host.recorded p.recorded) (call :: calls) ⟨w, none⟩ =
      ((performAll (d.actInformed found host.recorded p.recorded) (call :: calls) w').1,
        ⟨(performAll (d.actInformed found host.recorded p.recorded) (call :: calls) w').2,
          some found⟩)
  callsOrdinary : ∀ calls,
    Continues d w' (performAll (d.actInformed found host.recorded p.recorded) calls w').2
  callsFailed : ∀ m, found = .error m → ∀ calls,
    performAll (d.actInformed found host.recorded p.recorded) calls w' =
      (List.replicate calls.length (.error (.container m)), w')
  dial : ∀ (s : Setting) (v : World (WithContainer (Recorded ω))),
    (dialTransport (d.transport host.recorded p.recorded) p.recorded.outside s).outcome
        { v with outer := ⟨w, none⟩ } =
      (dialTransport (d.informed found host.recorded p.recorded).outside p.recorded.outside
        s).outcome { v with outer := ⟨w', some found⟩ }
  dialOrdinary : ∀ (s : Setting) (v : World (WithContainer (Recorded ω))),
    Continues d w' ((dialTransport (d.informed found host.recorded p.recorded).outside
      p.recorded.outside s).outcome { v with outer := ⟨w', some found⟩ }).2.outer.outer
  dialFailed : ∀ m, found = .error m → ∀ (s : Setting) (v : World (WithContainer (Recorded ω))),
    ((dialTransport (d.informed found host.recorded p.recorded).outside p.recorded.outside
        s).outcome { v with outer := ⟨w', some found⟩ }).1 = .error (.transport (.container m)) ∧
      ((dialTransport (d.informed found host.recorded p.recorded).outside p.recorded.outside
        s).outcome { v with outer := ⟨w', some found⟩ }).2.outer = ⟨w', some found⟩

/-- Whatever the client does, and whatever the container is used for, it is probed during the first
call and not again. If that came to properties, all calls use them. If not, all calls fail for the
reason that was found then, and they start no process and ask nothing. -/
theorem probedOnce (d : Docker) (host : Host ω) (p : Prompter ω) (w : Recorded ω) :
    ProbedOnce d host p w ((d.probe host.recorded).outcome w).1
      ((d.probe host.recorded).outcome w).2 where
  probing := probed d host w
  calls call calls :=
    (performAll_none rfl call calls).trans (performAll_some _ _)
  callsOrdinary calls := performAll_ordinary calls _
  callsFailed m hm calls := by
    rw [hm]
    exact performAll_error m calls _
  dial s v :=
    (dialTransport_none v rfl).trans (dialTransport_some v _)
  dialOrdinary s v :=
    dialTransport_keeps (keeps_continues ⟨_, none⟩)
      (keeps_outside fun text _ ho => ho.trans (adds_message p text _))
      ⟨[], (List.append_nil _).symm, nofun⟩
  dialFailed m hm s v := by
    rw [hm, dialTransport_error]
    exact ⟨rfl, rfl⟩

end Docker

end RemoteAgent
