import RemoteAgent.Agent.Installation
import RemoteAgent.Proofs.FileTree.Faults

/-! # Relocations

A file is moved to its destination, or copied if it cannot be moved. Any call on the way may fail,
and a copy may stop in the middle. All that a relocation may come to is told here once.
-/

namespace RemoteAgent.Agent

open Effect FileTree

variable {source destination : Path} {t u : FileTree}

section Outcomes

/-- The tree once the directories above a path have been made. -/
def prepared (destination : Path) (t : FileTree) : FileTree :=
  ((makeParent destination).run t).2

/-- What a relocation may come to. -/
inductive Relocates (source destination : Path) (t : FileTree) :
    Except AgentError Unit → FileTree → Prop where

  | undone {cause : AgentError} {u : FileTree} :
      t.Grown u → Relocates source destination t (.error cause) u

  | moved {l target : Location} {node : Node} {u : FileTree} :
      Renames (prepared destination t) source destination l target node →
      Renamed (prepared destination t) l target u → Relocates source destination t (.ok ()) u

  | brokenOff {cause : AgentError} {l target : Location} {content : List UInt8} {mode mode' n : Nat}
      {u : FileTree} :
      Copies (prepared destination t) source destination l target content mode →
      Overwritten (prepared destination t) target ((leftToCopy l target content).take n) mode' u →
      Relocates source destination t (.error cause) u

  | copied {l target : Location} {content : List UInt8} {mode : Nat} {u : FileTree} :
      Copies (prepared destination t) source destination l target content mode →
      Overwritten (prepared destination t) target (leftToCopy l target content) mode u →
      Relocates source destination t (.ok ()) u

  | removed {l target k : Location} {content : List UInt8} {mode : Nat} {u : FileTree} :
      Copies (prepared destination t) source destination l target content mode →
      Overwritten (prepared destination t) target (leftToCopy l target content) mode u →
      u.slot? source = .ok (some k) → Relocates source destination t (.ok ()) (u.clear k)

theorem safe_makeParent (destination : Path) (t : FileTree) :
    (makeParent destination).Safe t t.Grown fun r u =>
      t.Grown u ∧ (r = .ok () → u = prepared destination t) := by
  unfold prepared makeParent
  split
  next parent _ =>
    refine .perform (fun u hmidway => ⟨hmidway.grown, fun _ => ⟨hmidway.grown, nofun⟩⟩) ?_
    intro r u hmade
    have hgrown := FileCall.grown_makeDirectories parent t
    rw [hmade] at hgrown
    exact ⟨hgrown, hgrown, fun _ => (congrArg Prod.snd hmade).symm⟩
  · exact .pure (.refl t) ⟨.refl t, fun _ => rfl⟩

theorem grown_prepared (destination : Path) (t : FileTree) : t.Grown (prepared destination t) :=
  ((safe_makeParent destination t).ends _ _ (FileProgram.ends_run _ t)).1

theorem Relocates.unprepared (cause : AgentError) :
    Relocates source destination t (.error cause) (prepared destination t) :=
  .undone (grown_prepared destination t)

theorem safe_copy (source destination : Path) (t : FileTree) :
    (FileProgram.perform (.copy source destination)).Safe (prepared destination t)
      (fun u => ∃ r, Relocates source destination t r u) fun r u =>
        (∀ cause, r = .error cause → Relocates source destination t (.error (.io cause)) u) ∧
        (r = .ok () → ∃ l target content mode,
          Copies (prepared destination t) source destination l target content mode ∧
            Overwritten (prepared destination t) target (leftToCopy l target content) mode u) := by
  refine .perform (fun u hmidway => ?_) fun r u hperform => ?_
  · have hbroken : ∀ cause, Relocates source destination t (.error cause) u := by
      intro cause
      rcases hmidway.of_copy with rfl | ⟨l, target, content, mode, mode', n, hcopies, hwritten⟩
      · exact .unprepared cause
      · exact .brokenOff hcopies hwritten
    exact ⟨⟨_, hbroken (.io .nulInPath)⟩, fun _ => ⟨fun cause _ => hbroken (.io cause), nofun⟩⟩
  · have hcopy := allOrNothing_copy source destination (prepared destination t)
    rcases r with cause | ⟨⟩
    · obtain rfl := hcopy.of_error hperform
      exact ⟨⟨_, .unprepared (.io cause)⟩, fun cause _ => .unprepared (.io cause), nofun⟩
    · obtain ⟨l, target, content, mode, hcopies, hwritten⟩ := hcopy.of_ok hperform
      exact ⟨⟨_, .copied hcopies hwritten⟩, nofun, fun _ => ⟨_, _, _, _, hcopies, hwritten⟩⟩

theorem safe_copyOver (source destination : Path) (t : FileTree) :
    (copyOver source destination).Safe (prepared destination t)
      (fun u => ∃ r, Relocates source destination t r u)
      fun r u => Relocates source destination t (r.mapError .io) u := by
  refine (safe_copy source destination t).bind fun r u ⟨hfailed, hcopied⟩ => ?_
  rcases r with cause | ⟨⟩
  · exact .pure ⟨_, hfailed cause rfl⟩ (hfailed cause rfl)
  obtain ⟨l, target, content, mode, hcopies, hwritten⟩ := hcopied rfl
  have hkept : Relocates source destination t (.ok ()) u := .copied hcopies hwritten
  -- Whether the source is removed does not change the result.
  refine .bind (Q := fun _ v => Relocates source destination t (.ok ()) v) (.perform ?_ ?_)
    fun _ v hv => .pure ⟨_, hv⟩ hv
  · intro v hmidway
    obtain rfl := hmidway.of_removeFile
    exact ⟨⟨_, hkept⟩, fun _ => hkept⟩
  · intro r v hperform
    have hremove := allOrNothing_onPath (allOrNothing_removeFile source u) source
    rcases r with cause | ⟨⟩
    · obtain rfl := hremove.of_error hperform
      exact ⟨⟨_, hkept⟩, hkept⟩
    · obtain ⟨k, hslot, rfl⟩ := hremove.of_ok hperform
      exact ⟨⟨_, .removed hcopies hwritten hslot⟩, .removed hcopies hwritten hslot⟩

theorem allOrNothing_perform_rename (source destination : Path) (t : FileTree) :
    AllOrNothing (FileCall.rename source destination).perform t fun _ u => ∃ l target node,
      Renames t source destination l target node ∧ Renamed t l target u := by
  unfold AllOrNothing
  rw [outcome_perform_rename]
  split
  · exact .inl ⟨_, rfl⟩
  · rw [← outcome_mapError]
    exact (allOrNothing_rename source destination t).mapError IoError.system

theorem safe_rename (source destination : Path) (t : FileTree) :
    (FileProgram.perform (.rename source destination)).Safe (prepared destination t)
      (fun u => ∃ r, Relocates source destination t r u) fun r u =>
        (r = .ok () → Relocates source destination t (.ok ()) u) ∧
          ∀ cause, r = .error cause → u = prepared destination t := by
  refine .perform (fun u hmidway => ?_) fun r u hperform => ?_
  · obtain rfl := hmidway.of_rename
    exact ⟨⟨_, .unprepared (.io .nulInPath)⟩, fun _ => ⟨nofun, fun _ _ => rfl⟩⟩
  · have hrename := allOrNothing_perform_rename source destination (prepared destination t)
    rcases r with cause | ⟨⟩
    · obtain rfl := hrename.of_error hperform
      exact ⟨⟨_, .unprepared (.io cause)⟩, nofun, fun _ _ => rfl⟩
    · obtain ⟨l, target, node, hrenames, hrenamed⟩ := hrename.of_ok hperform
      exact ⟨⟨_, .moved hrenames hrenamed⟩, fun _ => .moved hrenames hrenamed, nofun⟩

/-- A relocation comes to nothing else, and it leaves nothing else on the way. -/
theorem safe_relocate (source destination : Path) (t : FileTree) :
    (relocate source destination).Safe t (fun u => ∃ r, Relocates source destination t r u)
      (Relocates source destination t) := by
  have hmake := (safe_makeParent destination t).mono
    (J := fun u => ∃ r, Relocates source destination t r u)
    (fun u hu => ⟨.error (.io .nulInPath), .undone hu⟩) fun _ _ h => h
  refine hmake.bind fun r u ⟨hgrown, hprepared⟩ => ?_
  rcases r with cause | ⟨⟩
  · have hundone : Relocates source destination t (.error (.io cause)) u := .undone hgrown
    exact .pure ⟨_, hundone⟩ hundone
  obtain rfl := hprepared rfl
  refine (safe_rename source destination t).bind fun r v ⟨hmoved, hsame⟩ => ?_
  rcases r with cause | ⟨⟩
  · obtain rfl := hsame cause rfl
    refine (safe_copyOver source destination t).bind fun r w hcopied => ?_
    exact .pure ⟨_, hcopied⟩ hcopied
  · exact .pure ⟨_, hmoved rfl⟩ (hmoved rfl)

end Outcomes

section Runs

variable {t' t'' : FileTree} {parent : Path}

theorem run_makeParent (hparent : destination.parent? = some parent)
    (hmake : (FileCall.makeDirectories parent).perform.outcome t = (.ok (), t')) :
    (makeParent destination).run t = (.ok (), t') := by
  unfold makeParent
  rw [hparent]
  exact hmake

theorem run_relocate_of_ok (hmade : (makeParent destination).run t = (.ok (), t'))
    (hrename : (FileCall.rename source destination).perform.outcome t' = (.ok (), t'')) :
    (relocate source destination).run t = (.ok (), t'') := by
  unfold relocate
  rw [FileProgram.run_bind, hmade]
  dsimp only
  rw [FileProgram.run_bind, FileProgram.run_perform, hrename]
  rfl

/-- What cannot be moved is copied. -/
theorem run_relocate_of_error {cause : IoError}
    (hmade : (makeParent destination).run t = (.ok (), t'))
    (hrename : (FileCall.rename source destination).perform.outcome t' = (.error cause, t')) :
    (relocate source destination).run t =
      (((copyOver source destination).run t').1.mapError .io,
        ((copyOver source destination).run t').2) := by
  unfold relocate
  rw [FileProgram.run_bind, hmade]
  dsimp only
  rw [FileProgram.run_bind, FileProgram.run_perform, hrename]
  dsimp only
  rw [FileProgram.run_bind]
  rfl

theorem run_copyOver_of_error {cause : IoError}
    (h : (FileCall.copy source destination).perform.outcome t = (.error cause, t')) :
    (copyOver source destination).run t = (.error cause, t') := by
  unfold copyOver
  rw [FileProgram.run_bind, FileProgram.run_perform, h]
  rfl

/-- It does not matter whether the source can be removed. -/
theorem run_copyOver_of_ok
    (h : (FileCall.copy source destination).perform.outcome t = (.ok (), t')) :
    (copyOver source destination).run t =
      (.ok (), ((FileCall.removeFile source).perform.outcome t').2) := by
  unfold copyOver
  rw [FileProgram.run_bind, FileProgram.run_perform, h]
  rfl

/-- Left to themselves, the calls of a relocation that fails have changed no file. -/
theorem grown_run_relocate {cause : AgentError}
    (h : (relocate source destination).run t = (.error cause, u)) : t.Grown u := by
  have hgrown := grown_prepared destination t
  unfold prepared at hgrown
  rcases hmade : (makeParent destination).run t with ⟨_ | ⟨⟩, v⟩ <;> rw [hmade] at hgrown
  · unfold relocate at h
    rw [FileProgram.run_bind, hmade] at h
    cases h
    exact hgrown
  rcases allOrNothing_perform_rename source destination v with
    ⟨cause', hrename⟩ | ⟨_, w, hrename, -⟩
  · rw [run_relocate_of_error hmade hrename] at h
    rcases allOrNothing_copy source destination v with ⟨cause', hcopy⟩ | ⟨_, w, hcopy, -⟩
    · rw [run_copyOver_of_error hcopy] at h
      cases h
      exact hgrown
    · rw [run_copyOver_of_ok hcopy] at h
      cases h
  · rw [run_relocate_of_ok hmade hrename] at h
    cases h

/-- Nothing is moved from one filesystem to another. -/
theorem exists_outcome_rename_error {l target : Location} (hsource : t.slot? source = .ok (some l))
    (hdestination : t.slot? destination = .ok (some target))
    (hapart : t.filesystem l.dropLast ≠ t.filesystem target.dropLast) :
    ∃ cause, (FileCall.rename source destination).perform.outcome t = (.error cause, t) := by
  rcases allOrNothing_perform_rename source destination t with
    hfailed | ⟨_, _, -, l', target', _, hrenames, -⟩
  · exact hfailed
  · cases hsource.symm.trans hrenames.atSource
    cases hdestination.symm.trans hrenames.atDestination
    exact absurd hrenames.filesystem hapart

/-- A copy that breaks off is the end of a relocation. -/
theorem ends_relocate_of_midway {cause : IoError}
    (hmade : (makeParent destination).run t = (.ok (), t'))
    (hrename : (FileCall.rename source destination).perform.outcome t' = (.error cause, t'))
    (hcopy : (FileCall.copy source destination).Midway t' u) (cause' : IoError) :
    (relocate source destination).Ends t (.error (.io cause')) u := by
  have hmake := FileProgram.ends_run (makeParent destination) t
  have hmove := FileProgram.ends_run (.perform (.rename source destination)) t'
  rw [hmade] at hmake
  rw [FileProgram.run_perform, hrename] at hmove
  have hbroken : (copyOver source destination).Ends t' (.error cause') u :=
    FileProgram.ends_bind_iff.2 ⟨_, _, .call (.failed hcopy) .done, .done⟩
  exact FileProgram.ends_bind_iff.2 ⟨_, _, hmake, FileProgram.ends_bind_iff.2
    ⟨_, _, hmove, FileProgram.ends_bind_iff.2 ⟨_, _, hbroken, .done⟩⟩⟩

end Runs

end RemoteAgent.Agent
