import RemoteAgent.Proofs.Agent.Relocation
import RemoteAgent.Proofs.FileTree.Names

/-! # Files that a relocation keeps

The file that is relocated is not lost, whatever fails: at all times it stands where it stood or,
whole, at its destination. What stood at the destination before is lost only if a copy stops in the
middle. Where a path leads is told by the tree in which the directories above the destination have
been made, because with them a path may come to lead somewhere else.
-/

namespace RemoteAgent.Agent

open Effect FileTree RemoteAgent.Path

variable {source destination : Path} {t u : FileTree}

section Keeping

variable {l m : Location} {node : Node} {content : List UInt8} {mode : Nat} {accessed : Timestamp}
  {cause : AgentError} {r : Except AgentError Unit}

/-- A path names something where it stands. -/
structure Remains (source : Path) (l : Location) (node : Node) (u : FileTree) : Prop where
  named : u.slot? source = .ok (some l)
  found : u.find? l = some node

/-- A file stands where a path named an entry, or where it led to. The path leads there and nowhere
else, unless it ran through the very link that the file has replaced: then it leads nowhere. -/
structure Delivered (t : FileTree) (destination : Path) (content : List UInt8) (mode : Nat)
    (u : FileTree) (m : Location) : Prop where
  named : t.slot? destination = .ok (some m) ∨ t.Receives destination m
  found : ∃ accessed, u.find? m = some (.file content mode accessed)
  leads : u.locate destination = .ok m ∨ t.RunsThrough destination m
  only : ∀ k, u.locate destination = .ok k → k = m ∧ ¬ t.RunsThrough destination m

theorem Delivered.of_receives (hreceives : t.Receives destination m)
    (hfound : ∃ accessed, u.find? m = some (.file content mode accessed))
    (hleads : u.locate destination = .ok m) : Delivered t destination content mode u m where
  named := .inr hreceives
  found := hfound
  leads := .inl hleads
  only k hk := by
    obtain rfl := Except.ok.inj (hk.symm.trans hleads)
    exact ⟨rfl, hreceives.deadEnd.not_runsThrough destination⟩

/-- A path neither names nor leads to anything. -/
structure Absent (t : FileTree) (p : Path) : Prop where
  unnamed : ∀ l, t.slot? p = .ok (some l) → t.find? l = none
  nowhere : ∀ l, t.locate p = .ok l → t.find? l = none

section Present

variable (hslot : t.slot? source = .ok (some l))
  (hfile : t.find? l = some (.file content mode accessed))
  (hapart : (prepared destination t).locate destination ≠ .ok l)

include hfile hapart

theorem ne_of_receives {target : Location}
    (h : (prepared destination t).Receives destination target) : l ≠ target := by
  rintro rfl
  exact hapart (h.locate ((grown_prepared destination t).find? hfile))

include hslot

theorem Relocates.remains (h : Relocates source destination t (.error cause) u) :
    Remains source l (.file content mode accessed) u := by
  cases h with
  | undone hgrown => exact ⟨hgrown.slot? hslot, hgrown.find? hfile⟩
  | brokenOff hcopies hwritten =>
    have hne := ne_of_receives hfile hapart hcopies.receives
    have hgrown := grown_prepared destination t
    exact ⟨hwritten.slot? (hgrown.slot? hslot), (hwritten.others l hne).trans (hgrown.find? hfile)⟩

/-- What is copied is the file. -/
theorem overwritten_of_copies {l' target : Location} {content' : List UInt8} {mode' : Nat}
    (hcopies : Copies (prepared destination t) source destination l' target content' mode')
    (hwritten :
      Overwritten (prepared destination t) target (leftToCopy l' target content') mode' u) :
    Overwritten (prepared destination t) target content mode u := by
  have hgrown := grown_prepared destination t
  have hsame : Renamed (prepared destination t) l l (prepared destination t) := .same rfl
  obtain ⟨rfl, -⟩ := hsame.eq_of_locate (hgrown.slot? hslot) (hgrown.find? hfile) hcopies.locate
  obtain ⟨_, hfound⟩ := hcopies.found
  cases (hgrown.find? hfile).symm.trans hfound
  rwa [leftToCopy, if_neg (ne_of_receives hfile hapart hcopies.receives)] at hwritten

theorem Relocates.delivered (h : Relocates source destination t (.ok ()) u) :
    ∃ m, Delivered (prepared destination t) destination content mode u m := by
  have hgrown := grown_prepared destination t
  have hslot' := hgrown.slot? hslot
  have hfile' := hgrown.find? hfile
  cases h with
  | @moved l' target node _ hrenames hrenamed =>
    obtain ⟨⟩ := hslot'.symm.trans hrenames.atSource
    obtain rfl := Option.some.inj (hfile'.symm.trans hrenames.found)
    refine ⟨target, .inl hrenames.atDestination, ⟨accessed, hrenamed.find?_target hfile'⟩, ?_,
      fun k hk => ?_⟩
    · by_cases habove : (prepared destination t).PassesAbove destination target
      · exact .inr (hrenames.runsThrough habove)
      · exact .inl (hrenamed.locate hrenames.atDestination (hrenames.plain rfl).2 hfile' habove)
    · obtain ⟨rfl, habove⟩ := hrenamed.eq_of_locate hrenames.atDestination hfile' hk
      exact ⟨rfl, fun hthrough => habove hthrough.passed⟩
  | copied hcopies hwritten =>
    have hwritten := overwritten_of_copies hslot hfile hapart hcopies hwritten
    exact ⟨_, .of_receives hcopies.receives hwritten.written (hwritten.locate hcopies.receives)⟩
  | @removed _ target _ _ _ v hcopies hwritten hremoved =>
    have hwritten := overwritten_of_copies hslot hfile hapart hcopies hwritten
    have hne := ne_of_receives hfile hapart hcopies.receives
    cases hremoved.symm.trans (hwritten.slot? hslot')
    have hend : v.DeadEnd l := .of_file ((hwritten.others l hne).trans hfile')
    obtain ⟨hleads, hfound⟩ := locate_clear (hwritten.locate hcopies.receives) hend hne.symm
    obtain ⟨accessed', hcontent⟩ := hwritten.written
    exact ⟨target, .of_receives hcopies.receives ⟨accessed', hfound.trans hcontent⟩ hleads⟩

end Present

/-- A path that names nothing that stands there does not lead there either. -/
theorem Absent.of_slot? (hslot : t.slot? source = .ok (some l)) (hnone : t.find? l = none) :
    Absent t source where
  unnamed k hk := by
    cases hslot.symm.trans hk
    exact hnone
  nowhere k hk := by
    obtain ⟨-, hdot, front, cs, _, d, hcomponents, hway, -, -, rfl⟩ := slot?_eq_some_iff.1 hslot
    obtain ⟨-, passed, hsteps⟩ := locate_ok_iff.1 hk
    rw [steps_eq hcomponents hdot] at hsteps
    obtain ⟨_, _, d', _, -, hfirst, hsecond⟩ := hsteps.split
    obtain ⟨-, rfl⟩ := hfirst.unique hway
    cases hsecond with
    | enter _ _ hfound | follow _ _ hfound => cases hnone.symm.trans hfound

theorem Absent.not_renames {target : Location} (h : Absent t source) :
    ¬ Renames t source destination l target node := by
  intro hrenames
  cases (h.unnamed l hrenames.atSource).symm.trans hrenames.found

theorem Absent.not_copies {target : Location} (h : Absent t source) :
    ¬ Copies t source destination l target content mode := by
  intro hcopies
  obtain ⟨_, hfound⟩ := hcopies.found
  cases (h.nowhere l hcopies.locate).symm.trans hfound

theorem Relocates.of_absent (h : Relocates source destination t r u)
    (habsent : Absent (prepared destination t) source) :
    (∃ cause, r = .error cause) ∧ t.Grown u := by
  cases h with
  | undone hgrown => exact ⟨⟨_, rfl⟩, hgrown⟩
  | moved hrenames => exact absurd hrenames habsent.not_renames
  | brokenOff hcopies | copied hcopies | removed hcopies =>
    exact absurd hcopies habsent.not_copies

/-- With nothing to move, no more is done than to make directories. -/
theorem run_relocate_of_absent {t' : FileTree}
    (hmade : (makeParent destination).run t = (.ok (), t')) (habsent : Absent t' source) :
    ∃ cause, (relocate source destination).run t = (.error cause, t') := by
  rcases allOrNothing_perform_rename source destination t' with
    ⟨cause, hrename⟩ | ⟨_, _, -, l, _, _, hrenames, -⟩
  · rcases allOrNothing_copy source destination t' with
      ⟨cause', hcopy⟩ | ⟨_, _, -, l, _, _, _, hcopies, -⟩
    · exact ⟨_, by rw [run_relocate_of_error hmade hrename, run_copyOver_of_error hcopy]; rfl⟩
    · exact absurd hcopies habsent.not_copies
  · exact absurd hrenames habsent.not_renames

/-- A relocation never loses the file that it moves: at all times the file stands where it stood or,
whole, at the destination, and the result says where. With nothing to move it fails, and all stays
but for new directories. -/
theorem relocate_losesNothing (source destination : Path) (t : FileTree) :
    (∀ l content mode accessed, t.slot? source = .ok (some l) →
      t.find? l = some (.file content mode accessed) →
      (prepared destination t).locate destination ≠ .ok l →
      (relocate source destination).Safe t
        (fun u => Remains source l (.file content mode accessed) u ∨
          ∃ m, Delivered (prepared destination t) destination content mode u m)
        fun r u => match r with
          | .ok () => ∃ m, Delivered (prepared destination t) destination content mode u m
          | .error _ => Remains source l (.file content mode accessed) u) ∧
    (Absent (prepared destination t) source →
      (relocate source destination).Safe t t.Grown fun r u =>
        (∃ cause, r = .error cause) ∧ t.Grown u) := by
  have hsafe := safe_relocate source destination t
  constructor
  · intro l content mode accessed hslot hfile hapart
    refine hsafe.mono (fun u ⟨r, hu⟩ => ?_) fun r u hu => ?_
    · rcases r with cause | ⟨⟩
      · exact .inl (hu.remains hslot hfile hapart)
      · exact .inr (hu.delivered hslot hfile hapart)
    · rcases r with cause | ⟨⟩
      · exact hu.remains hslot hfile hapart
      · exact hu.delivered hslot hfile hapart
  · intro habsent
    exact hsafe.mono (fun u ⟨_, hu⟩ => (hu.of_absent habsent).2) fun _ _ hu => hu.of_absent habsent

section Shed

/-- A tree with an agent in it. A new one lies on another filesystem, and a link leads there. -/
def shed : FileTree where
  nodes := [
    (["agent"], .file [1] 0o755 ⟨0⟩),
    (["disk"], .directory ⟨0⟩),
    (["disk", "upload"], .file [2, 3] 0o644 ⟨0⟩),
    (["back"], .link ⟨"disk/upload"⟩),
    (["turn"], .link ⟨"."⟩)]
  mounts := [["disk"]]
  now := ⟨0⟩

/-- The tree with a new directory. -/
def extendedShed : FileTree :=
  shed.put ["new"] (.directory ⟨0⟩)

variable {p : Path} {links : Nat} {rest : List Component} {passed : List Location} {cs : List Char}

theorem shed_upload : shed.slot? ⟨"disk/upload"⟩ = .ok (some ["disk", "upload"]) :=
  slot?_eq_some_iff.2 ⟨rfl, by decide, [.name "disk".toList], "upload".toList, _, ["disk"],
    by decide, .enter ⟨_, rfl⟩ rfl rfl nofun .arrived, ⟨_, rfl⟩, rfl, rfl⟩

/-- A name is looked for in the root. -/
theorem slot?_name (t : FileTree) (cs : List Char) (hshort : requirePath p = .ok ())
    (hdot : p.endsInDot = false) (h : p.components = [.name cs])
    (hname : requireName (String.ofList cs) = .ok ()) : t.slot? p = .ok (some [String.ofList cs]) :=
  slot?_eq_some_iff.2 ⟨hshort, hdot, [], cs, _, [], h, .arrived, ⟨_, rfl⟩, hname, rfl⟩

theorem shed_agent : shed.slot? ⟨"agent"⟩ = .ok (some ["agent"]) :=
  slot?_name shed "agent".toList rfl (by decide) (by decide) rfl

theorem shed_noWay : ¬ shed.Way links [] (.name "new".toList :: rest) passed l := by
  rintro (_ | _ | _ | _ | ⟨_, _, hfound, _, _⟩ | ⟨_, _, hfound, _⟩) <;>
    exact nomatch (rfl : shed.find? ["new"] = none).symm.trans hfound

theorem not_shed_locate (h : p.components.head? = some (.name "new".toList)) (l : Location) :
    shed.locate p ≠ .ok l := by
  intro hlocate
  obtain ⟨-, passed, hway⟩ := locate_ok_iff.1 hlocate
  obtain ⟨rest, hcomponents⟩ := List.head?_eq_some_iff.1 h
  rw [steps, hcomponents] at hway
  exact shed_noWay hway

theorem absent_shed (cs : List Char)
    (h : p.components = [.name "new".toList, .up, .name cs]) : Absent shed p where
  unnamed l hslot := by
    obtain ⟨-, -, front, _, passed, d, hcomponents, hway, -⟩ := slot?_eq_some_iff.1 hslot
    have hfront := congrArg List.dropLast (h.symm.trans hcomponents)
    rw [List.dropLast_concat] at hfront
    rw [← hfront] at hway
    exact absurd hway shed_noWay
  nowhere l hlocate := absurd hlocate (not_shed_locate (h ▸ rfl) l)

theorem extendedShed_way (links : Nat) :
    extendedShed.Way links [] [.name "new".toList, .up] [["new"]] [] :=
  .enter ⟨_, rfl⟩ rfl rfl nofun (.up ⟨_, rfl⟩ .arrived)

theorem slot?_up {t : FileTree} :
    t.slot? ⟨"new/.."⟩ = do
      t.requireDirectory (← t.walk false linkLimit [] [.name "new".toList])
      return none := by
  have hcomponents : components ⟨"new/.."⟩ = [.name "new".toList, .up] := by decide
  unfold slot?
  rw [hcomponents]
  rfl

theorem shed_makeDirectories :
    (FileCall.makeDirectories ⟨"new/.."⟩).perform.outcome shed = (.ok (), extendedShed) := by
  have habove : withAbove ⟨"new/.."⟩ = [⟨"new/.."⟩, ⟨"new"⟩] := by decide
  have hmissing : shed.slot? ⟨"new/.."⟩ = .error .noEntry := by
    rw [slot?_up, walk_name ⟨_, rfl⟩ rfl]
    rfl
  have hnew : shed.slot? ⟨"new"⟩ = .ok (some ["new"]) :=
    slot?_name shed "new".toList rfl (by decide) (by decide) rfl
  have hslot : extendedShed.slot? ⟨"new/.."⟩ = .ok none := by
    have hway : extendedShed.Way linkLimit [] [.name "new".toList] [["new"]] ["new"] :=
      .enter ⟨_, rfl⟩ rfl rfl nofun .arrived
    rw [slot?_up, hway.walk_eq]
    rfl
  have hdirectory : extendedShed.isDirectory ⟨"new/.."⟩ = true := by
    have hnode : extendedShed.node ⟨"new/.."⟩ = .ok (.directory ⟨0⟩) :=
      node_ok_iff.2 ⟨[], locate_ok_iff.2 ⟨rfl, _, extendedShed_way linkLimit⟩, rfl⟩
    rw [FileTree.isDirectory, hnode]
    rfl
  have hmake : (makeDirectories ⟨"new/.."⟩).outcome shed = (.ok (), extendedShed) := by
    unfold makeDirectories
    rw [habove]
    exact outcome_makeDirectoriesFrom_missing hmissing (outcome_makeDirectoriesFrom_new hnew rfl)
      hslot hdirectory
  exact outcome_onPath_of_ok (by decide) hmake

theorem shed_made {destination : Path} (h : destination.parent? = some ⟨"new/.."⟩) :
    (makeParent destination).run shed = (.ok (), extendedShed) :=
  run_makeParent h shed_makeDirectories

theorem extendedShed_slot (cs : List Char) (hshort : requirePath p = .ok ())
    (hdot : p.endsInDot = false) (h : p.components = [.name "new".toList, .up, .name cs])
    (hname : requireName (String.ofList cs) = .ok ()) :
    extendedShed.slot? p = .ok (some [String.ofList cs]) :=
  slot?_eq_some_iff.2 ⟨hshort, hdot, _, cs, _, [], h, extendedShed_way linkLimit, ⟨_, rfl⟩, hname,
    rfl⟩

/-- A source that is missing at first may be found once directories have been made. -/
theorem relocate_laterFound : ∃ u,
    (relocate ⟨"new/../agent"⟩ ⟨"new/../spare"⟩).run shed = (.ok (), u) := by
  have hsource : extendedShed.slot? ⟨"new/../agent"⟩ = .ok (some ["agent"]) :=
    extendedShed_slot "agent".toList rfl (by decide) (by decide) rfl
  have hdestination : extendedShed.slot? ⟨"new/../spare"⟩ = .ok (some ["spare"]) :=
    extendedShed_slot "spare".toList rfl (by decide) (by decide) rfl
  have hrename : (FileCall.rename ⟨"new/../agent"⟩ ⟨"new/../spare"⟩).perform.outcome extendedShed =
      (.ok (), extendedShed.move ["agent"] ["spare"]) := by
    rw [outcome_perform_rename, if_neg (by decide), outcome_rename hsource hdestination rfl rfl
      (by decide) (by decide) (by decide) (by decide) rfl nofun]
    rfl
  exact ⟨_, run_relocate_of_ok (shed_made (by decide)) hrename⟩

theorem extendedShed_upload : extendedShed.locate ⟨"disk/upload"⟩ = .ok ["disk", "upload"] :=
  locate_ok_iff.2 ⟨rfl, _, .enter ⟨_, rfl⟩ rfl rfl nofun (.enter ⟨_, rfl⟩ rfl rfl nofun .arrived)⟩

theorem extendedShed_back : extendedShed.Receives ⟨"new/../back"⟩ ["disk", "upload"] where
  short := rfl
  slash := by decide
  walk := by
    have hback : extendedShed.Way linkLimit [] [.name "back".toList]
        [["back"], ["disk"], ["disk", "upload"]] ["disk", "upload"] :=
      .follow ⟨_, rfl⟩ rfl rfl (.enter ⟨_, rfl⟩ rfl rfl nofun
        (.enter ⟨_, rfl⟩ rfl rfl nofun .arrived))
    have hway : extendedShed.Way linkLimit [] (steps ⟨"new/../back"⟩)
        [["new"], ["back"], ["disk"], ["disk", "upload"]] ["disk", "upload"] :=
      .enter ⟨_, rfl⟩ rfl rfl nofun (.up ⟨_, rfl⟩ hback)
    exact hway.walk_eq
  deadEnd := .of_file rfl

/-- A destination that leads nowhere at first may lead to the source once directories have been
made. Then the file is emptied and removed. -/
theorem relocate_laterSame : ∃ u,
    (relocate ⟨"disk/upload"⟩ ⟨"new/../back"⟩).run shed = (.ok (), u) ∧
      ∀ k mode accessed, u.find? k ≠ some (.file [2, 3] mode accessed) := by
  have hback : extendedShed.slot? ⟨"new/../back"⟩ = .ok (some ["back"]) :=
    extendedShed_slot "back".toList rfl (by decide) (by decide) rfl
  have hcopies : Copies extendedShed ⟨"disk/upload"⟩ ⟨"new/../back"⟩ ["disk", "upload"]
      ["disk", "upload"] [2, 3] 0o644 :=
    ⟨extendedShed_upload, ⟨_, rfl⟩, extendedShed_back⟩
  obtain ⟨u, hcopy, hwritten⟩ := hcopies.outcome_copy (by decide) (by decide)
  obtain ⟨_, hemptied⟩ := hwritten.written
  have hupload : extendedShed.slot? ⟨"disk/upload"⟩ = .ok (some ["disk", "upload"]) :=
    (Grown.put rfl ⟨0⟩).slot? shed_upload
  have hremove := outcome_removeFile (by decide) (by decide) (hwritten.slot? hupload) hemptied
  obtain ⟨cause, hrename⟩ := exists_outcome_rename_error hupload hback (by decide)
  refine ⟨u.clear ["disk", "upload"], ?_, fun k mode accessed hfound => ?_⟩
  · rw [run_relocate_of_error (shed_made (by decide)) hrename, run_copyOver_of_ok hcopy, hremove]
    rfl
  · rw [find?_clear _ _ _ (by simp)] at hfound
    split at hfound
    · cases hfound
    next habove =>
    have hk : k ≠ ["disk", "upload"] := by
      rintro rfl
      exact habove rfl
    rw [hwritten.others k hk] at hfound
    have hroot : k ≠ [] := by
      rintro rfl
      cases hfound
    have hmem := mem_of_find? hroot hfound
    simp [extendedShed, shed, put, hk] at hmem

/-- A path may pass a link that is replaced. Then it leads nowhere any more. -/
theorem relocate_laterNowhere : ∃ u,
    (relocate ⟨"agent"⟩ ⟨"turn/turn"⟩).run shed = (.ok (), u) ∧
      ∀ l, u.locate ⟨"turn/turn"⟩ ≠ .ok l := by
  have hturn : shed.Way linkLimit [] [.name "turn".toList] [["turn"]] [] :=
    .follow ⟨_, rfl⟩ rfl rfl (.here ⟨_, rfl⟩ (.here ⟨_, rfl⟩ .arrived))
  have hslot : shed.slot? ⟨"turn"⟩ = .ok (some ["turn"]) :=
    slot?_name shed "turn".toList rfl (by decide) (by decide) rfl
  have hslot' : shed.slot? ⟨"turn/turn"⟩ = .ok (some ["turn"]) :=
    slot?_eq_some_iff.2 ⟨rfl, by decide, [.name "turn".toList], "turn".toList, _, [], by decide,
      hturn, ⟨_, rfl⟩, rfl, rfl⟩
  have hdirectory : shed.isDirectory ⟨"turn"⟩ = true := by
    have hnode : shed.node ⟨"turn"⟩ = .ok (.directory ⟨0⟩) :=
      node_ok_iff.2 ⟨[], locate_ok_iff.2 ⟨rfl, _, hturn⟩, rfl⟩
    rw [FileTree.isDirectory, hnode]
    rfl
  have hmade : (makeParent ⟨"turn/turn"⟩).run shed = (.ok (), shed) :=
    run_makeParent (by decide) (outcome_makeDirectories (by decide)
      (by decide : withAbove ⟨"turn"⟩ = _ :: []) hslot hdirectory rfl)
  have hrename : (FileCall.rename ⟨"agent"⟩ ⟨"turn/turn"⟩).perform.outcome shed =
      (.ok (), shed.move ["agent"] ["turn"]) := by
    rw [outcome_perform_rename, if_neg (by decide), outcome_rename shed_agent hslot' rfl rfl
      (by decide) (by decide) (by decide) (by decide) rfl (by rintro _ ⟨⟩; rfl)]
    rfl
  refine ⟨_, run_relocate_of_ok hmade hrename, fun l hlocate => ?_⟩
  obtain ⟨-, passed, hway⟩ := locate_ok_iff.1 hlocate
  rw [(by decide : steps ⟨"turn/turn"⟩ = [.name "turn".toList] ++ [.name "turn".toList])] at hway
  obtain ⟨_, _, m, _, -, hfirst, hsecond⟩ := hway.split
  have hfile : (shed.move ["agent"] ["turn"]).find? ["turn"] = some (.file [1] 0o755 ⟨0⟩) := rfl
  obtain rfl := hfirst.name_cases.2 (by simp) _ _ _ hfile
  exact (DeadEnd.of_file hfile).not_isDirectoryAt hsecond.name_cases.1

theorem shed_made_agent : (makeParent ⟨"agent"⟩).run shed = (.ok (), shed) := by
  have hmake : (makeDirectories ⟨""⟩).outcome shed = (.ok (), shed) := by
    rw [makeDirectories, (by decide : withAbove ⟨""⟩ = [])]
    rfl
  exact run_makeParent (by decide) (outcome_onPath_of_ok (by decide) hmake)

theorem absent_of_find? (h : t.find? ["absent"] = none) : Absent t ⟨"absent"⟩ :=
  .of_slot? (slot?_name t "absent".toList rfl (by decide) (by decide) rfl) h

theorem relocate_losesNothing_shed :
    (relocate ⟨"disk/upload"⟩ ⟨"agent"⟩).Safe shed
      (fun u => Remains ⟨"disk/upload"⟩ ["disk", "upload"] (.file [2, 3] 0o644 ⟨0⟩) u ∨
        ∃ m, Delivered (prepared ⟨"agent"⟩ shed) ⟨"agent"⟩ [2, 3] 0o644 u m)
      (fun r u => match r with
        | .ok () => ∃ m, Delivered (prepared ⟨"agent"⟩ shed) ⟨"agent"⟩ [2, 3] 0o644 u m
        | .error _ => Remains ⟨"disk/upload"⟩ ["disk", "upload"] (.file [2, 3] 0o644 ⟨0⟩) u) ∧
    (relocate ⟨"absent"⟩ ⟨"agent"⟩).Safe shed shed.Grown fun r u =>
      (∃ cause, r = .error cause) ∧ shed.Grown u := by
  have hprepared : prepared ⟨"agent"⟩ shed = shed := congrArg Prod.snd shed_made_agent
  refine ⟨(relocate_losesNothing _ _ shed).1 _ _ _ _ shed_upload rfl ?_,
    (relocate_losesNothing _ _ shed).2 ?_⟩
  · rw [hprepared, locate_of_slot? shed_agent (by decide) rfl]
    decide
  · rw [hprepared]
    exact absent_of_find? rfl

/-- What the tree is before directories are made does not tell whether there is something to move,
nor whether the destination is another file. -/
theorem not_relocate_foundBefore :
    (Absent shed ⟨"new/../agent"⟩ ∧
      ∃ u, (relocate ⟨"new/../agent"⟩ ⟨"new/../spare"⟩).run shed = (.ok (), u)) ∧
    (shed.slot? ⟨"disk/upload"⟩ = .ok (some ["disk", "upload"]) ∧
      shed.find? ["disk", "upload"] = some (.file [2, 3] 0o644 ⟨0⟩) ∧
      (∀ l, shed.locate ⟨"new/../back"⟩ ≠ .ok l) ∧
      ∃ u, (relocate ⟨"disk/upload"⟩ ⟨"new/../back"⟩).run shed = (.ok (), u) ∧
        ∀ k mode accessed, u.find? k ≠ some (.file [2, 3] mode accessed)) ∧
    (shed.slot? ⟨"agent"⟩ = .ok (some ["agent"]) ∧
      shed.find? ["agent"] = some (.file [1] 0o755 ⟨0⟩) ∧
      shed.locate ⟨"turn/turn"⟩ = .ok [] ∧
      ∃ u, (relocate ⟨"agent"⟩ ⟨"turn/turn"⟩).run shed = (.ok (), u) ∧
        ∀ l, u.locate ⟨"turn/turn"⟩ ≠ .ok l) := by
  refine ⟨⟨absent_shed "agent".toList (by decide), relocate_laterFound⟩,
    ⟨shed_upload, rfl, not_shed_locate (by decide), relocate_laterSame⟩,
    ⟨shed_agent, rfl, ?_, relocate_laterNowhere⟩⟩
  exact locate_ok_iff.2 ⟨rfl, _, .follow ⟨_, rfl⟩ rfl rfl (.here ⟨_, rfl⟩ (.here ⟨_, rfl⟩
    (.follow ⟨_, rfl⟩ rfl rfl (.here ⟨_, rfl⟩ (.here ⟨_, rfl⟩ .arrived)))))⟩

end Shed

end Keeping

section Failing

/-- What a path leads to is as it was, and so is all else but for new directories. -/
structure Kept (t : FileTree) (destination : Path) (u : FileTree) : Prop where
  grown : t.Grown u
  leads : ∀ m node, t.locate destination = .ok m → t.find? m = some node →
    u.locate destination = .ok m ∧ u.find? m = some node
  noneNew : ∀ m content mode accessed, u.find? m = some (.file content mode accessed) →
    t.find? m = some (.file content mode accessed)

theorem Kept.of_grown (h : t.Grown u) (destination : Path) : Kept t destination u where
  grown := h
  leads _ _ hm hfound := ⟨h.locate hm, h.find? hfound⟩
  noneNew _ _ _ _ hfound := h.of_find? hfound rfl

/-- A relocation that fails keeps what stood at the destination, unless it stops in the middle of a
copy: then the destination holds a first part of the file. All else is kept, but for directories
that are made first. -/
theorem relocate_keepsPrevious (source destination : Path) (t : FileTree) :
    t.Grown (prepared destination t) ∧
    (∀ cause u, (relocate source destination).Ends t (.error cause) u →
      Kept t destination u ∨ ∃ l target content mode mode' n,
        Copies (prepared destination t) source destination l target content mode ∧
          Overwritten (prepared destination t) target ((leftToCopy l target content).take n)
            mode' u) ∧
    ∀ cause u, (relocate source destination).run t = (.error cause, u) → Kept t destination u := by
  refine ⟨grown_prepared destination t, ?_, ?_⟩
  · intro cause u hends
    cases (safe_relocate source destination t).ends _ u hends with
    | undone hgrown => exact .inl (.of_grown hgrown destination)
    | brokenOff hcopies hwritten => exact .inr ⟨_, _, _, _, _, _, hcopies, hwritten⟩
  · exact fun cause u hrun => .of_grown (grown_run_relocate hrun) destination

/-- A copy onto the agent in place may break off after one byte. -/
theorem exists_ends_shed (cause : IoError) : ∃ u,
    (relocate ⟨"disk/upload"⟩ ⟨"agent"⟩).Ends shed (.error (.io cause)) u ∧
      u.locate ⟨"agent"⟩ = .ok ["agent"] ∧
      ∃ mode accessed, u.find? ["agent"] = some (.file [2] mode accessed) := by
  have hreceives : shed.Receives ⟨"agent"⟩ ["agent"] := by
    refine ⟨rfl, by decide, ?_, .of_file rfl⟩
    obtain ⟨-, passed, hway⟩ := locate_ok_iff.1 (locate_of_slot? shed_agent (by decide) rfl)
    exact hway.walk_eq
  have hcopies : Copies shed ⟨"disk/upload"⟩ ⟨"agent"⟩ ["disk", "upload"] ["agent"] [2, 3] 0o644 :=
    ⟨locate_of_slot? shed_upload (by decide) rfl, ⟨_, rfl⟩, hreceives⟩
  obtain ⟨u, hmidway, hwritten⟩ := FileCall.exists_midway_copy hcopies 1
  obtain ⟨_, hrename⟩ := exists_outcome_rename_error shed_upload shed_agent (by decide)
  obtain ⟨accessed, hfound⟩ := hwritten.written
  exact ⟨u, ends_relocate_of_midway shed_made_agent hrename hmidway cause,
    hwritten.locate hreceives, _, accessed, hfound⟩

theorem relocate_keepsPrevious_shed :
    (∃ cause u, (relocate ⟨"disk/upload"⟩ ⟨"agent"⟩).Ends shed (.error cause) u ∧
      (Kept shed ⟨"agent"⟩ u ∨ ∃ l target content mode mode' n,
        Copies (prepared ⟨"agent"⟩ shed) ⟨"disk/upload"⟩ ⟨"agent"⟩ l target content mode ∧
          Overwritten (prepared ⟨"agent"⟩ shed) target ((leftToCopy l target content).take n)
            mode' u)) ∧
    ∃ cause u, (relocate ⟨"absent"⟩ ⟨"agent"⟩).run shed = (.error cause, u) ∧
      Kept shed ⟨"agent"⟩ u := by
  obtain ⟨u, hends, -⟩ := exists_ends_shed (.custom .storageFull "")
  obtain ⟨cause, hrun⟩ := run_relocate_of_absent shed_made_agent (absent_of_find? rfl)
  exact ⟨⟨_, u, hends, (relocate_keepsPrevious _ _ shed).2.1 _ u hends⟩,
    cause, shed, hrun, (relocate_keepsPrevious _ _ shed).2.2 cause shed hrun⟩

/-- A copy that breaks off leaves a part of a file where the agent was, and a directory that was
made may be what leads to a file. -/
theorem relocate_losesPrevious :
    (shed.locate ⟨"agent"⟩ = .ok ["agent"] ∧
      shed.find? ["agent"] = some (.file [1] 0o755 ⟨0⟩) ∧
      ∃ cause u, (relocate ⟨"disk/upload"⟩ ⟨"agent"⟩).Ends shed (.error cause) u ∧
        u.locate ⟨"agent"⟩ = .ok ["agent"] ∧
        ∃ mode accessed, u.find? ["agent"] = some (.file [2] mode accessed)) ∧
    (∀ l, shed.locate ⟨"new/../agent"⟩ ≠ .ok l) ∧
      ∃ cause u, (relocate ⟨"absent"⟩ ⟨"new/../agent"⟩).run shed = (.error cause, u) ∧
        u.locate ⟨"new/../agent"⟩ = .ok ["agent"] ∧
        u.find? ["agent"] = some (.file [1] 0o755 ⟨0⟩) := by
  have habsent : Absent extendedShed ⟨"absent"⟩ := absent_of_find? rfl
  obtain ⟨cause, hrun⟩ := run_relocate_of_absent
    (shed_made (by decide : Path.parent? ⟨"new/../agent"⟩ = _)) habsent
  have hslot : extendedShed.slot? ⟨"new/../agent"⟩ = .ok (some ["agent"]) :=
    extendedShed_slot "agent".toList rfl (by decide) (by decide) rfl
  obtain ⟨u, hends⟩ := exists_ends_shed (.custom .storageFull "")
  exact ⟨⟨locate_of_slot? shed_agent (by decide) rfl, rfl, _, u, hends⟩,
    not_shed_locate (by decide), cause, extendedShed, hrun,
    locate_of_slot? hslot (by decide) rfl, rfl⟩

end Failing

end RemoteAgent.Agent
