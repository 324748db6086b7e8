import RemoteAgent.Proofs.Bundle.Refusals
import RemoteAgent.Proofs.Dial.Temporaries
import RemoteAgent.Proofs.Dial.Upload
import RemoteAgent.Proofs.Transport.Watched

/-! # Temporary files at every call

Whenever an installation calls the transport or the prompter, it is seen which temporary files there
are. Nothing else changes by that. What is seen at each call is told for the whole installation by
what its parts show.
-/

namespace RemoteAgent.Dial

open Effect

variable {ω κ ε ε' α β : Type}

/-- A call, and the temporary files that there were when it was made. -/
structure Sighting (κ : Type) where
  call : Call κ
  temporaries : TemporaryDirectory

/-- A world together with what was seen in it. -/
structure Sighted (ω κ : Type) where
  outer : ω
  sightings : List (Sighting κ)

namespace Sighted

/-- The world without what was seen. -/
def unseen (w : World (Sighted ω κ)) : World ω :=
  ⟨w.outer.outer, w.journal, w.temporaries⟩

/-- The world that has become `v`, after more has been seen. -/
def after (w : World (Sighted ω κ)) (v : World ω) (sightings : List (Sighting κ)) :
    World (Sighted ω κ) :=
  ⟨⟨v.outer, w.outer.sightings ++ sightings⟩, v.journal, v.temporaries⟩

@[simp] theorem unseen_after (w : World (Sighted ω κ)) (v : World ω)
    (sightings : List (Sighting κ)) : unseen (after w v sightings) = v := rfl

@[simp] theorem after_after (w : World (Sighted ω κ)) (v v' : World ω)
    (sightings sightings' : List (Sighting κ)) :
    after (after w v sightings) v' sightings' = after w v' (sightings ++ sightings') := by
  simp [after]

theorem after_unseen (w : World (Sighted ω κ)) : after w (unseen w) [] = w := by
  simp [after, unseen]

/-- Takes a step, and notes which temporary files there were before it. -/
def see (call : Except ε α → Call κ) (x : Effect (World ω) ε α) :
    Effect (World (Sighted ω κ)) ε α := do
  let temporaries := (← get).temporaries
  let result ← (x.within unseen fun w v => after w v []).attempt
  modify fun w => after w (unseen w) [⟨call result, temporaries⟩]
  Effect.ofExcept result

def transport (t : Transport ω κ) : Transport (World (Sighted ω κ)) κ where
  copy file name := see (.copy file name) ((World.transport t).copy file name)
  command line := see (.command line) ((World.transport t).command line)
  start prepared := see (.start prepared) ((World.transport t).start prepared)

def prompter (κ : Type) (p : Prompter ω) : Prompter (World (Sighted ω κ)) where
  identifier := p.identifier
  message text := see (.message text) ((World.prompter p).message text)
  prompt question := see (.prompt question) ((World.prompter p).prompt question)

@[simp] theorem outcome_see (call : Except ε α → Call κ) (x : Effect (World ω) ε α)
    (w : World (Sighted ω κ)) :
    (see call x).outcome w =
      ((x.outcome (unseen w)).1,
        after w (x.outcome (unseen w)).2 [⟨call (x.outcome (unseen w)).1, w.temporaries⟩]) := by
  simp only [see, outcome_bind, outcome_get, outcome_attempt, outcome_within, outcome_modify,
    outcome_ofExcept, unseen_after, after_after, List.nil_append]

end Sighted

open Sighted

/-- From a world `x` does what `y` does without being watched. Every call is seen that the journal
tells of, and what is seen is of a kind. -/
structure ShowsAt (Q : Sighting κ → Prop) (x : Effect (World (Sighted ω κ)) ε α)
    (y : Effect (World ω) ε α) (w : World (Sighted ω κ)) (sightings : List (Sighting κ))
    (events : List Event) : Prop where
  outcome_eq : x.outcome w =
    ((y.outcome (unseen w)).1, after w (y.outcome (unseen w)).2 sightings)
  journal_eq : (y.outcome (unseen w)).2.journal = w.journal ++ events
  complete : events.filter Event.isCall = sightings.filterMap (·.call.event?)
  seen : ∀ sighting ∈ sightings, Q sighting

/-- The same from every world with the temporary files `d`; in the end they are `d'`. -/
def ShowsTo (Q : Sighting κ → Prop) (d d' : TemporaryDirectory)
    (x : Effect (World (Sighted ω κ)) ε α) (y : Effect (World ω) ε α) : Prop :=
  ∀ w, w.temporaries = d → (∃ sightings events, ShowsAt Q x y w sightings events) ∧
    (y.outcome (unseen w)).2.temporaries = d'

/-- The same for a program that leaves the temporary files as they are. -/
abbrev Shows (Q : Sighting κ → Prop) (d : TemporaryDirectory)
    (x : Effect (World (Sighted ω κ)) ε α) (y : Effect (World ω) ε α) : Prop :=
  ShowsTo Q d d x y

variable {Q : Sighting κ → Prop} {d d' d'' : TemporaryDirectory}
  {x : Effect (World (Sighted ω κ)) ε α} {y : Effect (World ω) ε α} {w : World (Sighted ω κ)}
  {sightings : List (Sighting κ)} {events : List Event}

namespace ShowsAt

theorem bind {f : α → Effect (World (Sighted ω κ)) ε β} {g : α → Effect (World ω) ε β}
    (h : ShowsAt Q x y w sightings events)
    (hf : ∀ a v, y.outcome (unseen w) = (.ok a, v) →
      ∃ sightings' events', ShowsAt Q (f a) (g a) (after w v sightings) sightings' events') :
    ∃ sightings events, ShowsAt Q (x >>= f) (y >>= g) w sightings events := by
  obtain ⟨hx, hj, hc, hs⟩ := h
  rcases hy : y.outcome (unseen w) with ⟨e | a, v⟩ <;> rw [hy] at hx hj
  · refine ⟨sightings, events, ?_, ?_, hc, hs⟩
    · rw [outcome_bind_error hx, outcome_bind_error hy]
    · rw [outcome_bind_error hy]
      exact hj
  · obtain ⟨sightings', events', hx', hj', hc', hs'⟩ := hf a v hy
    rw [unseen_after] at hx' hj'
    refine ⟨sightings ++ sightings', events ++ events', ?_, ?_, ?_, ?_⟩
    · rw [outcome_bind_ok hx, outcome_bind_ok hy, hx', after_after]
    · rw [outcome_bind_ok hy, hj', ← List.append_assoc]
      exact congrArg (· ++ events') hj
    · rw [List.filter_append, List.filterMap_append, hc, hc']
    · exact List.forall_mem_append.2 ⟨hs, hs'⟩

theorem attempt (h : ShowsAt Q x y w sightings events) :
    ShowsAt Q (x.attempt : Effect _ ε' (Except ε α)) y.attempt w sightings events where
  outcome_eq := by rw [outcome_attempt, outcome_attempt, h.outcome_eq]
  journal_eq := by rw [outcome_attempt, h.journal_eq]
  complete := h.complete
  seen := h.seen

theorem mapError (h : ShowsAt Q x y w sightings events) (f : ε → ε') :
    ShowsAt Q (x.mapError f) (y.mapError f) w sightings events where
  outcome_eq := by rw [outcome_mapError, outcome_mapError, h.outcome_eq]
  journal_eq := by rw [outcome_mapError, h.journal_eq]
  complete := h.complete
  seen := h.seen

end ShowsAt

namespace ShowsTo

theorem bind {f : α → Effect (World (Sighted ω κ)) ε β} {g : α → Effect (World ω) ε β}
    (h : ShowsTo Q d d' x y) (hf : ∀ a, Shows Q d' (f a) (g a)) :
    ShowsTo Q d d' (x >>= f) (y >>= g) := by
  intro w hw
  obtain ⟨⟨sightings, events, hat⟩, hd⟩ := h w hw
  refine ⟨hat.bind fun a v hy => ?_, ?_⟩
  · rw [hy] at hd
    exact (hf a (after w v sightings) hd).1
  · rcases hy : y.outcome (unseen w) with ⟨e | a, v⟩ <;> rw [hy] at hd
    · rw [outcome_bind_error hy]
      exact hd
    · rw [outcome_bind_ok hy]
      exact (hf a (after w v []) hd).2

/-- After a step that does not fail the temporary files may change once more. -/
theorem bind_of_ok {f : α → Effect (World (Sighted ω κ)) ε β} {g : α → Effect (World ω) ε β}
    (h : ShowsTo Q d d' x y) (hf : ∀ a, ShowsTo Q d' d'' (f a) (g a))
    (hok : ∀ v, v.temporaries = d → ∃ a v', y.outcome v = (.ok a, v')) :
    ShowsTo Q d d'' (x >>= f) (y >>= g) := by
  intro w hw
  obtain ⟨⟨sightings, events, hat⟩, hd⟩ := h w hw
  obtain ⟨a, v, hy⟩ := hok (unseen w) hw
  rw [hy] at hd
  refine ⟨hat.bind fun a' v' hy' => ?_, ?_⟩
  · obtain ⟨-, rfl⟩ := Prod.mk.inj (hy.symm.trans hy')
    exact (hf a' (after w v sightings) hd).1
  · rw [outcome_bind_ok hy]
    exact (hf a (after w v []) hd).2

/-- What is done may depend on the world, but not on what was seen in it. -/
theorem get_bind {f : World (Sighted ω κ) → Effect (World (Sighted ω κ)) ε α}
    {g : World ω → Effect (World ω) ε α} (h : ∀ w, Shows Q d (f w) (g (unseen w))) :
    Shows Q d (get >>= f) (get >>= g) := by
  intro w hw
  have hx : (get >>= f).outcome w = (f w).outcome w := outcome_bind_ok (outcome_get w) f
  have hy : (get >>= g).outcome (unseen w) = (g (unseen w)).outcome (unseen w) :=
    outcome_bind_ok (outcome_get (unseen w)) g
  obtain ⟨⟨sightings, events, hat⟩, hkeep⟩ := h w w hw
  refine ⟨⟨sightings, events, ?_, ?_, hat.complete, hat.seen⟩, ?_⟩
  · rw [hx, hy, hat.outcome_eq]
  · rw [hy, hat.journal_eq]
  · rw [hy, hkeep]

theorem attempt (h : ShowsTo Q d d' x y) :
    ShowsTo Q d d' (x.attempt : Effect _ ε' (Except ε α)) y.attempt := by
  intro w hw
  obtain ⟨⟨sightings, events, hat⟩, hd⟩ := h w hw
  exact ⟨⟨sightings, events, hat.attempt⟩, by rw [outcome_attempt]; exact hd⟩

theorem mapError (h : ShowsTo Q d d' x y) (f : ε → ε') :
    ShowsTo Q d d' (x.mapError f) (y.mapError f) := by
  intro w hw
  obtain ⟨⟨sightings, events, hat⟩, hd⟩ := h w hw
  exact ⟨⟨sightings, events, hat.mapError f⟩, by rw [outcome_mapError]; exact hd⟩

end ShowsTo

theorem shows_ofExcept (r : Except ε α) :
    Shows Q d (Effect.ofExcept r : Effect (World (Sighted ω κ)) ε α) (Effect.ofExcept r) := by
  intro w hw
  refine ⟨⟨[], [], ?_, ?_, rfl, nofun⟩, ?_⟩
  · rw [outcome_ofExcept, outcome_ofExcept, after_unseen]
  · rw [outcome_ofExcept, List.append_nil]
    rfl
  · rw [outcome_ofExcept]
    exact hw

theorem shows_failed {e : ε} (hx : ∀ w, w.temporaries = d → x.outcome w = (.error e, w))
    (hy : ∀ w, w.temporaries = d → y.outcome w = (.error e, w)) : Shows Q d x y := by
  intro w hw
  have hunseen := hy (unseen w) hw
  refine ⟨⟨[], [], ?_, ?_, rfl, nofun⟩, ?_⟩
  · rw [hx w hw, hunseen, after_unseen]
  · rw [hunseen, List.append_nil]
    rfl
  · rw [hunseen]
    exact hw

section Calls

variable {t : Transport ω κ} {p : Prompter ω} {s : Setting}

theorem shows_see {call : Except ε α → Call κ} {x : Effect (World ω) ε α} (events : List Event)
    (hx : ∀ v, ∃ o, (x.outcome v).2 = v.after o events)
    (hcomplete : ∀ r, events.filter Event.isCall = (call r).event?.toList)
    (hQ : ∀ r, Q ⟨call r, d⟩) : Shows Q d (see call x) x := by
  intro w hw
  obtain ⟨o, ho⟩ := hx (unseen w)
  refine ⟨⟨_, events, outcome_see call x w, ?_, ?_, ?_⟩, ?_⟩
  · rw [ho]
    rfl
  · rw [hcomplete (x.outcome (unseen w)).1]
    cases h : (call (x.outcome (unseen w)).1).event? <;> simp [h]
  · rw [hw]
    simpa using hQ (x.outcome (unseen w)).1
  · rw [ho]
    exact hw

theorem shows_message {text : String} (hQ : ∀ r, Q ⟨.message text r, d⟩) :
    Shows Q d ((Sighted.prompter κ p).message text) ((World.prompter p).message text) :=
  shows_see [.message text] (fun v => ⟨_, by rw [World.outcome_message]⟩) (fun _ => rfl) hQ

theorem shows_tell {text : String} (hQ : ∀ r, Q ⟨.message text r, d⟩) :
    Shows Q d (tell (Sighted.prompter κ p) text) (tell (World.prompter p) text) :=
  (shows_message hQ).mapError _

theorem shows_copy {file : LocalFile} {name : String} (hQ : ∀ r, Q ⟨.copy file name r, d⟩) :
    Shows Q d ((Sighted.transport t).copy file name) ((World.transport t).copy file name) :=
  shows_see [.copy file name] (fun v => ⟨_, by rw [World.outcome_copy]⟩) (fun _ => rfl) hQ

theorem shows_run {line : String} (hQ : ∀ call : Call κ, Q ⟨call, d⟩) :
    Shows Q d ((Sighted.transport t).run line) ((World.transport t).run line) := by
  have hcommand : Shows Q d ((Sighted.transport t).command line)
      ((World.transport t).command line) :=
    shows_see [.command line] (fun v => ⟨_, by rw [World.outcome_command]⟩) (fun _ => rfl)
      fun _ => hQ _
  have hstart : ∀ prepared, Shows Q d ((Sighted.transport t).start prepared)
      ((World.transport t).start prepared) := fun prepared =>
    shows_see [] (fun v => ⟨_, by rw [World.outcome_start]⟩) (fun _ => rfl) fun _ => hQ _
  exact hcommand.bind fun prepared => ((hstart prepared).mapError _).bind fun process =>
    shows_ofExcept _

theorem shows_ask {line : String} {read : String → Except ProbeError Platform}
    (hQ : ∀ call : Call κ, Q ⟨call, d⟩) :
    Shows Q d (Platform.ask (Sighted.transport t) line read)
      (Platform.ask (World.transport t) line read) :=
  ((shows_run hQ).mapError _).bind fun _ => shows_ofExcept _

theorem shows_probe (hQ : ∀ call : Call κ, Q ⟨call, d⟩) :
    Shows Q d (Platform.probe (Sighted.transport t) (Sighted.prompter κ p))
      (Platform.probe (World.transport t) (World.prompter p)) := by
  refine .bind ((shows_message fun _ => hQ _).mapError _) fun _ => ?_
  refine .bind (shows_ask hQ).attempt fun posix => ?_
  cases posix with
  | ok platform => exact shows_ofExcept (.ok platform)
  | error cause =>
    refine .bind ((shows_message fun _ => hQ _).mapError _) fun _ => ?_
    refine .bind (shows_ask hQ).attempt fun windows => ?_
    cases windows with
    | ok platform => exact shows_ofExcept (.ok platform)
    | error cause' => exact shows_ofExcept (.error (ProbeError.exhausted cause cause'))

end Calls

/-- The calls between the extraction and the end of the copy. -/
inductive IsDelivery : Call κ → Prop where

  | told (result : Except PromptError Unit) : IsDelivery (.message "Copying agent..." result)

  | copied (file : LocalFile) (name : String) (result : Except TransportError Unit) :
      IsDelivery (.copy file name result)

/-- Beside the files `d` there is at most one, under a name, and only while it is delivered. -/
inductive IsBrief (name : String) (d : TemporaryDirectory) : Sighting κ → Prop where

  | without (call : Call κ) : IsBrief name d ⟨call, d⟩

  | delivering {call : Call κ} (created : TemporaryFile) (hname : created.name = name)
      (hcall : IsDelivery call) : IsBrief name d ⟨call, d ++ [created]⟩

section Installations

variable {t : Transport ω κ} {p : Prompter ω} {s : Setting} {refusals : Refusals}

/-- An extraction makes no call; it leaves one file more or fails and leaves none. -/
theorem extractAgent_cases (platform : Platform) (refusals : Refusals)
    (hfresh : d.find? s.freshName = none) :
    (∃ cause, ∀ {ν : Type} (w : World ν), w.temporaries = d →
      (extractAgent s platform refusals).outcome w = (.error (.extract cause), w)) ∨
    ∃ created, created.name = s.freshName ∧
      TemporaryDirectory.remove (d ++ [created]) s.freshName = d ∧
      ∀ {ν : Type} (w : World ν), w.temporaries = d →
        (extractAgent s platform refusals).outcome w =
          (.ok (), { w with temporaries := d ++ [created] }.after w.outer
            [.fileCreated s.freshName]) := by
  rcases hpath : s.config.resolvedBundlePath s.executable with cause | bundle
  · refine .inl ⟨cause, fun w _ => ?_⟩
    rw [extractAgent, hpath]
    rfl
  · have hleaves := Bundle.leaves_extract (s.readBundle bundle) platform.os platform.arch hfresh
      refusals
    generalize hresult : Bundle.extract (s.readBundle bundle) platform.os platform.arch s.freshName
      d refusals = result at hleaves
    cases hleaves with
    | nothing cause =>
      refine .inl ⟨cause, fun w hw => ?_⟩
      subst hw
      simp only [extractAgent, hpath, outcome_bind, outcome_ofExcept, mapError_ok, outcome_get,
        hresult]
      rfl
    | one created hname hremove =>
      refine .inr ⟨created, hname, hremove, fun w hw => ?_⟩
      subst hw
      simp only [extractAgent, hpath, outcome_bind, outcome_ofExcept, mapError_ok, outcome_get,
        hresult]
      rfl

theorem shows_removeAgent :
    ShowsTo Q d (d.remove s.freshName) (removeAgent s : Effect (World (Sighted ω κ)) DialError Unit)
      (removeAgent s) := by
  intro w hw
  have hremove : ∀ {ν : Type} (v : World ν), (removeAgent s).outcome v =
      (.ok (), { v with temporaries := v.temporaries.remove s.freshName }.after v.outer
        [.fileRemoved s.freshName]) := fun v => rfl
  refine ⟨⟨[], [.fileRemoved s.freshName], ?_, ?_, rfl, nofun⟩, ?_⟩
  · rw [hremove, hremove]
    simp [after, unseen, World.after]
  · rw [hremove]
    rfl
  · rw [hremove, ← hw]
    rfl

theorem shows_copyAgent {created : TemporaryFile} {name : String}
    (hname : created.name = s.freshName) :
    Shows (IsBrief s.freshName d) (d ++ [created])
      (copyAgent (Sighted.transport t) (Sighted.prompter κ p) s name)
      (copyAgent (World.transport t) (World.prompter p) s name) := by
  refine .bind (shows_tell fun r => .delivering created hname (.told r)) fun _ => ?_
  refine .get_bind fun w => ?_
  exact (shows_copy fun r => .delivering created hname (.copied _ _ r)).mapError _

theorem shows_runLine (line : String) :
    Shows (IsBrief s.freshName d) d (runLine (Sighted.transport t) line)
      (runLine (World.transport t) line) :=
  .bind ((shows_run fun call => .without call).mapError _) fun _ => shows_ofExcept (.ok ())

theorem shows_launchInstaller (platform : Platform) (name : String) :
    Shows (IsBrief s.freshName d) d
      (launchInstaller (Sighted.transport t) (Sighted.prompter κ p) platform name)
      (launchInstaller (World.transport t) (World.prompter p) platform name) := by
  have hlast : Shows (IsBrief s.freshName d) d
      (tell (Sighted.prompter κ p) installMessage >>= fun _ =>
        runLine (Sighted.transport t) (installLine platform.posix name))
      (tell (World.prompter p) installMessage >>= fun _ =>
        runLine (World.transport t) (installLine platform.posix name)) :=
    .bind (shows_tell fun r => .without _) fun _ => shows_runLine _
  unfold launchInstaller
  split
  · exact .bind (shows_runLine _) fun _ => hlast
  · exact hlast

/-- Whether or not the copy arrives, the local one is removed. -/
theorem shows_deliverAgent {created : TemporaryFile} {name : String}
    (hname : created.name = s.freshName)
    (hremove : TemporaryDirectory.remove (d ++ [created]) s.freshName = d) :
    ShowsTo (IsBrief s.freshName d) (d ++ [created]) d
      (deliverAgent (Sighted.transport t) (Sighted.prompter κ p) s name)
      (deliverAgent (World.transport t) (World.prompter p) s name) := by
  refine (shows_copyAgent hname).attempt.bind_of_ok (fun copied => ?_) fun v _ => ?_
  · have hremoved := shows_removeAgent (κ := κ) (ω := ω) (s := s) (d := d ++ [created])
      (Q := IsBrief s.freshName d)
    rw [hremove] at hremoved
    exact hremoved.bind fun _ => shows_ofExcept copied
  · exact ⟨_, _, outcome_attempt _ v⟩

/-- If there is nothing to deliver, there is nothing to remove either. -/
theorem shows_extracted (platform : Platform) (name : String) (refusals : Refusals)
    (hfresh : d.find? s.freshName = none) :
    Shows (IsBrief s.freshName d) d
      (extractAgent s platform refusals >>= fun _ =>
        deliverAgent (Sighted.transport t) (Sighted.prompter κ p) s name >>= fun _ =>
          launchInstaller (Sighted.transport t) (Sighted.prompter κ p) platform name)
      (extractAgent s platform refusals >>= fun _ =>
        deliverAgent (World.transport t) (World.prompter p) s name >>= fun _ =>
          launchInstaller (World.transport t) (World.prompter p) platform name) := by
  obtain ⟨cause, hextract⟩ | ⟨created, hname, hremove, hextract⟩ :=
    extractAgent_cases platform refusals hfresh
  · exact shows_failed (fun w hw => outcome_bind_error (hextract w hw) _)
      fun w hw => outcome_bind_error (hextract w hw) _
  · have hextracted : ShowsTo (IsBrief s.freshName d) d (d ++ [created])
        (extractAgent s platform refusals : Effect (World (Sighted ω κ)) DialError Unit)
        (extractAgent s platform refusals) := by
      intro w hw
      refine ⟨⟨[], [.fileCreated s.freshName], ?_, ?_, rfl, nofun⟩, ?_⟩
      · rw [hextract w hw, hextract (unseen w) hw]
        simp [after, unseen, World.after]
      · rw [hextract (unseen w) hw]
        rfl
      · rw [hextract (unseen w) hw]
        rfl
    refine hextracted.bind_of_ok (fun _ => ?_) fun v hv => ⟨(), _, hextract v hv⟩
    exact (shows_deliverAgent hname hremove).bind fun _ => shows_launchInstaller platform name

variable (t p s refusals)

theorem shows_install (hfresh : d.find? s.freshName = none) :
    Shows (IsBrief s.freshName d) d
      (installThrough (Sighted.transport t) (Sighted.prompter κ p) s refusals)
      (install t p s refusals) := by
  unfold install installThrough
  refine .bind ((shows_probe fun call => .without call).mapError _) fun platform => ?_
  exact .bind (shows_tell fun _ => .without _) fun _ => shows_extracted platform _ refusals hfresh

/-- No temporary file outlives its use, whatever the system refuses. An extraction that fails leaves
the directory as it was. At every call of an installation there is at most one file more than
before, and only while it is copied; in the end there is none, whichever step has failed. -/
theorem install_leavesNoTemporary {w : World (Sighted ω κ)}
    (hfresh : w.temporaries.find? s.freshName = none) :
    (∀ bundle os arch, Bundle.Leaves s.freshName w.temporaries
      (Bundle.extract bundle os arch s.freshName w.temporaries refusals)) ∧
    (∃ sightings events, ShowsAt (IsBrief s.freshName w.temporaries)
      (installThrough (Sighted.transport t) (Sighted.prompter κ p) s refusals)
      (install t p s refusals) w sightings events) ∧
    ((install t p s refusals).outcome (unseen w)).2.temporaries = w.temporaries := by
  obtain ⟨hshows, hkept⟩ := shows_install t p s refusals hfresh w rfl
  exact ⟨fun bundle os arch => Bundle.leaves_extract bundle os arch hfresh refusals, hshows, hkept⟩

theorem install_leavesNoTemporary_cygwin :
    (World.start (⟨(), []⟩ : Sighted Unit Process)).temporaries.find?
      cygwinSetting.freshName = none ∧
    ((install cygwin (.silent Unit) cygwinSetting).outcome (World.start ())).1 = .ok () ∧
    (∃ sightings events, ShowsAt (IsBrief cygwinSetting.freshName [])
      (installThrough (Sighted.transport cygwin) (Sighted.prompter Process (.silent Unit))
        cygwinSetting)
      (install cygwin (.silent Unit) cygwinSetting) (World.start ⟨(), []⟩) sightings events) := by
  obtain ⟨v, events, hinstall, -⟩ := install_cygwin (World.start ())
  have hfresh : (World.start (⟨(), []⟩ : Sighted Unit Process)).temporaries.find?
      cygwinSetting.freshName = none := rfl
  have hbrief := install_leavesNoTemporary cygwin (.silent Unit) cygwinSetting {} hfresh
  exact ⟨hfresh, by rw [hinstall], hbrief.2.1⟩

end Installations

end RemoteAgent.Dial
