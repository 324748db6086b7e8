import RemoteAgent.Proofs.Bundle.Selection
import RemoteAgent.Proofs.Dial.Composition

/-! # Temporary files

What an extraction leaves in the temporary directory is removed as soon as it has been copied, or
could not be. So a dial leaves no file behind, however it goes.
-/

namespace RemoteAgent.Dial

open Effect Relation

variable {ω κ ε α β : Type}

/-- A program leaves the temporary directory as it is. -/
def KeepsTemporaries (x : Effect (World ω) ε α) : Prop :=
  ∀ w, (x.outcome w).2.temporaries = w.temporaries

theorem KeepsTemporaries.bind {x : Effect (World ω) ε α} {f : α → Effect (World ω) ε β}
    (hx : KeepsTemporaries x) (hf : ∀ a, KeepsTemporaries (f a)) :
    KeepsTemporaries (x >>= f) := by
  intro w
  have h := hx w
  rcases hw : x.outcome w with ⟨e | a, w'⟩ <;> rw [hw] at h
  · rw [outcome_bind_error hw]
    exact h
  · rw [outcome_bind_ok hw]
    exact (hf a w').trans h

section Extracting

variable {s : Setting} {d : TemporaryDirectory}

/-- An extraction adds one file, or else nothing. -/
theorem afterExtraction_cases (platform : Platform) (hd : d.find? s.freshName = none) :
    (∃ cause, extraction s platform = .error cause ∧ afterExtraction s platform d = d) ∨
    extraction s platform = .ok () ∧
      ∃ file, file.name = s.freshName ∧ afterExtraction s platform d = d ++ [file] := by
  rcases hb : s.config.resolvedBundlePath s.executable with cause | bundle
  · refine .inl ⟨cause, ?_, ?_⟩
    · rw [extraction, hb]
      rfl
    · rw [afterExtraction, hb]
  rw [extraction_eq hb, afterExtraction, hb, Bundle.extract_outcome (d := []) d]
  dsimp only
  rcases s.readBundle bundle with cause | bytes
  · exact .inl ⟨_, rfl, rfl⟩
  obtain ⟨result, hresult⟩ : ∃ result, Bundle.Extraction (Tar.contents (Gzip.decompress bytes))
    platform.os platform.arch result := Bundle.exists_extraction
  have hsettled : Bundle.extract (.ok bytes) platform.os platform.arch s.freshName d =
      Bundle.settled platform.os s.freshName d result := hresult.extractEntries_eq hd
  rw [hsettled]
  rcases result with cause | data
  · exact .inl ⟨cause, rfl, rfl⟩
  · exact .inr ⟨rfl, _, rfl, rfl⟩

end Extracting

section Programs

variable {t : Transport ω κ} {p : Prompter ω} {s : Setting}

theorem keepsTemporaries_tell (text : String) :
    KeepsTemporaries (tell (World.prompter p) text) := by
  intro w
  rw [outcome_tell]
  rfl

theorem keepsTemporaries_runLine (line : String) :
    KeepsTemporaries (runLine (World.transport t) line) := by
  intro w
  simp only [runLine, outcome_bind, outcome_mapError, World.outcome_run]
  rcases (t.run line).outcome w.outer with ⟨e | output, o⟩ <;> rfl

theorem keepsTemporaries_copyAgent (name : String) :
    KeepsTemporaries (copyAgent (World.transport t) (World.prompter p) s name) := by
  refine .bind (keepsTemporaries_tell _) fun _ => .bind (fun w => rfl) fun v w => ?_
  rw [outcome_copy]
  rfl

theorem temporaries_deliverAgent (name : String) (w : World ω) :
    ((deliverAgent (World.transport t) (World.prompter p) s name).outcome w).2.temporaries =
      w.temporaries.remove s.freshName := by
  have hcopy := keepsTemporaries_copyAgent (t := t) (p := p) (s := s) name w
  simp only [deliverAgent, removeAgent, outcome_bind, outcome_attempt, outcome_modify,
    outcome_ofExcept, World.outcome_note]
  exact congrArg (TemporaryDirectory.remove · s.freshName) hcopy

theorem compositional_keepsTemporaries :
    Compositional fun _ (x _ : Effect (World ω) DialError _) => KeepsTemporaries x :=
  ⟨.bind, fun h w => by rw [h]⟩

theorem keepsTemporaries_launchInstaller (platform : Platform) (name : String) :
    KeepsTemporaries (launchInstaller (World.transport t) (World.prompter p) platform name) :=
  related_launchInstaller (u := t) (q := p) compositional_keepsTemporaries (keepsTemporaries_tell _)
    keepsTemporaries_runLine

/-- Whatever follows the delivery, the local copy is gone. -/
theorem temporaries_delivered (platform : Platform) (name : String) (w : World ω) :
    ((deliverAgent (World.transport t) (World.prompter p) s name >>= fun _ =>
      launchInstaller (World.transport t) (World.prompter p) platform name).outcome
        w).2.temporaries = w.temporaries.remove s.freshName := by
  have h := temporaries_deliverAgent (t := t) (p := p) (s := s) name w
  rcases hw : (deliverAgent (World.transport t) (World.prompter p) s name).outcome w with
    ⟨e | _, w'⟩ <;> rw [hw] at h
  · rw [outcome_bind_error hw]
    exact h
  · rw [outcome_bind_ok hw]
    exact (keepsTemporaries_launchInstaller platform name w').trans h

theorem temporaries_installFor {platform : Platform} {name : String} {w : World ω}
    (hfresh : w.temporaries.find? s.freshName = none) :
    ((installFor (World.transport t) (World.prompter p) s platform name).outcome w).2.temporaries =
      w.temporaries := by
  have htell := keepsTemporaries_tell (p := p) extractMessage w
  unfold installFor
  rcases hw : (tell (World.prompter p) extractMessage).outcome w with ⟨e | _, w₁⟩ <;>
    rw [hw] at htell
  · rw [outcome_bind_error hw]
    exact htell
  obtain ⟨events, -, hx⟩ := outcome_extractAgent s platform w₁
  rw [outcome_bind_ok hw, ← htell]
  rw [← htell] at hfresh
  obtain ⟨cause, hr, hd⟩ | ⟨hr, file, hfile, hd⟩ :=
    afterExtraction_cases platform hfresh <;> rw [hr, hd] at hx
  · rw [outcome_bind_error hx]
    rfl
  · rw [outcome_bind_ok hx]
    exact (temporaries_delivered platform name _).trans
      (TemporaryDirectory.remove_append hfresh hfile)

theorem temporaries_install {w : World ω} (hfresh : w.temporaries.find? s.freshName = none) :
    ((install t p s).outcome w).2.temporaries = w.temporaries := by
  obtain ⟨o, probing, -, ⟨cause, -, ho⟩ | ⟨platform, -, -, ho⟩⟩ := outcome_install t p s w <;>
    rw [ho]
  · rfl
  · exact temporaries_installFor hfresh

theorem temporaries_attempt (paths : PathSyntax) :
    KeepsTemporaries (attempt (World.transport t) s paths) := by
  intro w
  obtain ⟨o, status, h | h | h⟩ := (attempted t s paths w).journal <;> rw [h] <;> rfl

theorem Step.temporaries {a b : Stage × World ω} (h : Step t p s a b)
    (hfresh : a.2.temporaries.find? s.freshName = none) :
    b.2.temporaries = a.2.temporaries := by
  have hattempt : ∀ {paths r w w'}, (attempt (World.transport t) s paths).outcome w = (r, w') →
      w'.temporaries = w.temporaries := by
    intro paths r w w' h
    have := temporaries_attempt (t := t) (s := s) paths w
    rwa [h] at this
  cases h with
  | connected h | wrongShell h | missing h | final h | reconnected h | unreconnected h =>
    exact hattempt h
  | uninstalled h | installed h =>
    have := temporaries_install (t := t) (p := p) hfresh
    rwa [h] at this
  | unannounced | announced => rfl

theorem temporaries_dialTransport {w : World ω}
    (hfresh : w.temporaries.find? s.freshName = none) :
    ((dialTransport t p s).outcome w).2.temporaries = w.temporaries := by
  have hrun : ∀ {b}, ReflTransGen (Step t p s) (.attempting .posix, w) b →
      b.2.temporaries = w.temporaries := by
    intro b h
    induction h with
    | refl => rfl
    | tail _ hstep ih => exact (hstep.temporaries (by rw [ih]; exact hfresh)).trans ih
  exact hrun (endsAs_dialTransport w)

end Programs

end RemoteAgent.Dial
