import RemoteAgent.Proofs.FileTree.Calls

/-! # Moved files

A file that has been moved to where a path leads is what the path leads to. The way there is the one
that it was before, because it passes neither the file that was moved nor what that has replaced.
-/

namespace RemoteAgent.FileTree

open Effect RemoteAgent.Path

variable {t t' : FileTree} {l r k target : Location} {steps : List Component}
  {passed : List Location} {links : Nat} {content : List UInt8} {mode : Nat}
  {accessed : Timestamp}

section Passing

theorem root_notMem_ofPieces (ps : List (List Char)) : Component.root ∉ ofPieces ps := by
  simp only [ofPieces, List.mem_filterMap, not_exists, not_and]
  intro p _ h
  split at h
  · cases h
  · split at h <;> cases h

/-- Only the first component of a path goes to the root. -/
theorem root_notMem_tail_components (p : Path) : .root ∉ p.components.tail := by
  rw [components_eq_append]
  split
  · exact root_notMem_ofPieces _
  · split
    · exact root_notMem_ofPieces _
    · exact fun h => root_notMem_ofPieces _ (List.mem_of_mem_tail h)

theorem root_notMem_tail_steps (p : Path) : .root ∉ p.steps.tail := by
  have hend : .root ∉ (if p.endsInDot || p.endsInSlash then [.here] else [] : List Component) := by
    split <;> simp
  have htail := root_notMem_tail_components p
  unfold steps
  generalize p.components = cs at htail ⊢
  rcases cs with _ | ⟨c, cs⟩
  · exact fun h => hend (List.mem_of_mem_tail h)
  · exact fun h => (List.mem_append.1 h).elim htail hend

/-- Whether no way leads on from a location: a file stands there, or nothing does. -/
def DeadEnd (t : FileTree) (k : Location) : Prop :=
  ∀ node, t.find? k = some node → ∃ content mode accessed, node = .file content mode accessed

theorem DeadEnd.of_file (h : t.find? k = some (.file content mode accessed)) : t.DeadEnd k :=
  fun _ hnode => ⟨_, _, _, Option.some.inj (hnode.symm.trans h)⟩

theorem DeadEnd.not_isDirectoryAt (h : t.DeadEnd k) : ¬ t.IsDirectoryAt k := by
  rintro ⟨_, hd⟩
  obtain ⟨_, _, _, hfile⟩ := h _ hd
  cases hfile

theorem DeadEnd.ne_nil (h : t.DeadEnd k) : k ≠ [] := by
  rintro rfl
  exact h.not_isDirectoryAt ⟨t.now, rfl⟩

/-- Nothing leads on from a dead end, unless it starts again at the root. -/
theorem Way.eq_of_deadEnd (h : t.Way links k steps passed r) (hroot : .root ∉ steps)
    (hk : t.DeadEnd k) : r = k := by
  have hno := hk.not_isDirectoryAt
  cases h with
  | arrived => rfl
  | root => exact absurd List.mem_cons_self hroot
  | here hd | up hd | enter hd | follow hd => exact absurd hd hno

theorem ne_nil_of_not_isPrefix (h : ¬ k <+: l) : k ≠ [] := by
  rintro rfl
  exact h List.nil_prefix

/-- A way that does not pass a location does not go below it either. -/
theorem Way.notBelow (h : t.Way links l steps passed r) (hl : ¬ k <+: l) (hk : k ∉ passed) :
    (∀ m ∈ passed, ¬ k <+: m) ∧ ¬ k <+: r := by
  have hroot := ne_nil_of_not_isPrefix hl
  induction h with
  | arrived => exact ⟨nofun, hl⟩
  | root _ ih => exact ih (fun hbelow => hroot (List.prefix_nil.1 hbelow)) hk
  | here _ _ ih => exact ih hl hk
  | up _ _ ih => exact ih (fun hbelow => hl (hbelow.trans (List.dropLast_prefix _))) hk
  | enter _ _ _ _ _ ih =>
    obtain ⟨hne, hk⟩ := List.ne_and_not_mem_of_not_mem_cons hk
    have hnext := fun hbelow => (List.prefix_concat_iff.1 hbelow).elim hne hl
    obtain ⟨hpassed, hend⟩ := ih hnext hk
    exact ⟨List.forall_mem_cons.2 ⟨hnext, hpassed⟩, hend⟩
  | follow _ _ _ _ ih =>
    obtain ⟨hne, hk⟩ := List.ne_and_not_mem_of_not_mem_cons hk
    have hlink := fun hbelow => (List.prefix_concat_iff.1 hbelow).elim hne hl
    obtain ⟨hpassed, hend⟩ := ih hl hk
    exact ⟨List.forall_mem_cons.2 ⟨hlink, hpassed⟩, hend⟩

/-- A way that leads elsewhere does not pass a dead end. -/
theorem Way.notMem_passed (h : t.Way links l steps passed r) (hroot : .root ∉ steps.tail)
    (hk : t.DeadEnd k) (hr : r ≠ k) : k ∉ passed := by
  have htail : ∀ {c : Component} {rest}, .root ∉ (c :: rest).tail → .root ∉ rest.tail :=
    fun h hmem => h (List.mem_of_mem_tail hmem)
  induction h with
  | arrived => exact List.not_mem_nil
  | root _ ih | here _ _ ih | up _ _ ih => exact ih (htail hroot) hr
  | enter _ _ _ _ hway ih =>
    refine List.not_mem_cons_of_ne_of_not_mem ?_ (ih (htail hroot) hr)
    rintro rfl
    exact hr (hway.eq_of_deadEnd hroot hk)
  | @follow _ _ _ _ target rest _ _ _ hfind hway ih =>
    have hsteps : .root ∉ (target.steps ++ rest).tail := by
      have htarget := root_notMem_tail_steps target
      rcases hsteps : target.steps with _ | ⟨c, more⟩ <;> rw [hsteps] at htarget
      · exact htail hroot
      · exact fun hmem => (List.mem_append.1 hmem).elim htarget hroot
    refine List.not_mem_cons_of_ne_of_not_mem ?_ (ih hsteps hr)
    rintro rfl
    obtain ⟨_, _, _, hfile⟩ := hk _ hfind
    cases hfile

/-- The steps of a path that ends in a name. -/
theorem steps_eq {p : Path} {front : List Component} {cs : List Char}
    (h : p.components = front ++ [.name cs]) (hdot : p.endsInDot = false) :
    p.steps = front ++ .name cs :: if p.endsInSlash then [.here] else [] := by
  simp [steps, h, hdot]

theorem root_notMem_tail_dropLast (p : Path) : .root ∉ p.components.dropLast.tail := by
  rw [List.tail_dropLast]
  exact fun hmem => root_notMem_tail_components p (List.dropLast_subset _ hmem)

/-- A name is looked for in a directory, and leads to what stands under it if that is a file. -/
theorem Way.name_cases {cs : List Char} (h : t.Way links l (.name cs :: steps) passed r) :
    t.IsDirectoryAt l ∧ (.root ∉ steps → ∀ content mode accessed,
      t.find? (l ++ [String.ofList cs]) = some (.file content mode accessed) →
        r = l ++ [String.ofList cs]) := by
  cases h with
  | enter hd _ _ _ h =>
    exact ⟨hd, fun hroot _ _ _ hfile => h.eq_of_deadEnd hroot (.of_file hfile)⟩
  | follow hd _ hfind => exact ⟨hd, fun _ _ _ _ hfile => nomatch hfile.symm.trans hfind⟩

/-- The way to the directory in which the last component of a path is looked for passes a
location. -/
def PassesAbove (t : FileTree) (p : Path) (k : Location) : Prop :=
  ∃ passed d, t.Way linkLimit [] p.components.dropLast passed d ∧ t.IsDirectoryAt d ∧ k ∈ passed

theorem DeadEnd.not_passesAbove (h : t.DeadEnd k) (p : Path) : ¬ t.PassesAbove p k := by
  rintro ⟨passed, d, hway, hd, hmem⟩
  refine hway.notMem_passed (root_notMem_tail_dropLast p) h ?_ hmem
  rintro rfl
  exact h.not_isDirectoryAt hd

/-- A link is passed on the way to the directory that a path names it in. -/
structure RunsThrough (t : FileTree) (p : Path) (k : Location) : Prop where
  link : ∃ link, t.find? k = some (.link link)
  passed : t.PassesAbove p k

theorem DeadEnd.not_runsThrough (h : t.DeadEnd k) (p : Path) : ¬ t.RunsThrough p k :=
  fun hthrough => h.not_passesAbove p hthrough.passed

section Keeping

variable {ends : List Location}

/-- A way stays when only what it does not pass is changed. -/
theorem Way.keep (h : t.Way links l steps passed r) (hends : ∀ e ∈ ends, e ∉ passed)
    (hl : Avoids ends l) (hsame : ∀ {k}, Avoids ends k → t'.find? k = t.find? k) :
    t'.Way links l steps passed r ∧ Avoids ends r := by
  refine h.transfer .of_isPrefix (fun hk => (hsame hk).trans) hl fun m hm => ⟨hl.root, ?_⟩
  intro e he
  exact (h.notBelow (hl.notBelow e he) (hends e he)).1 m hm

/-- What a path names stays when only what is not passed above it is changed. -/
theorem slot?_keep {p : Path} (ends : List Location) (h : t.slot? p = .ok (some l))
    (hroot : [] ∉ ends) (hends : ∀ e ∈ ends, ¬ t.PassesAbove p e)
    (hsame : ∀ {k}, Avoids ends k → t'.find? k = t.find? k) : t'.slot? p = .ok (some l) := by
  obtain ⟨hshort, hdot, front, cs, passed, d, hcomponents, hway, hd, hn, rfl⟩ :=
    slot?_eq_some_iff.1 h
  have hfront : p.components.dropLast = front := by rw [hcomponents, List.dropLast_concat]
  have habove : ∀ e ∈ ends, e ∉ passed := fun e he hmem =>
    hends e he ⟨passed, d, hfront ▸ hway, hd, hmem⟩
  obtain ⟨hway, hdaway⟩ := hway.keep habove (.nil hroot) hsame
  obtain ⟨_, hfind⟩ := hd
  exact slot?_eq_some_iff.2 ⟨hshort, hdot, front, cs, passed, d, hcomponents, hway,
    ⟨_, (hsame hdaway).trans hfind⟩, hn, rfl⟩

/-- Without a file, a path still leads where it led, unless it led to the file. -/
theorem locate_clear {p : Path} (h : t.locate p = .ok r) (hk : t.DeadEnd k) (hr : r ≠ k) :
    (t.clear k).locate p = .ok r ∧ (t.clear k).find? r = t.find? r := by
  obtain ⟨hshort, passed, hway⟩ := locate_ok_iff.1 h
  have hroot : [] ∉ [k] := by simpa using hk.ne_nil.symm
  have hkept : (t.clearAll [k]).Way linkLimit [] p.steps passed r ∧ Avoids [k] r :=
    hway.keep (by simpa using hway.notMem_passed (root_notMem_tail_steps p) hk hr) (.nil hroot)
      find?_clearAll_of_avoids
  obtain ⟨hway, haway⟩ := hkept
  exact ⟨locate_ok_iff.2 ⟨hshort, passed, hway⟩, find?_clearAll_of_avoids haway⟩

end Keeping

/-- Where a path names a file, it leads to the file. -/
theorem locate_of_slot? {p : Path} (h : t.slot? p = .ok (some l)) (hslash : p.endsInSlash = false)
    (hfile : t.find? l = some (.file content mode accessed)) : t.locate p = .ok l := by
  obtain ⟨hshort, hdot, front, cs, passed, d, hcomponents, hway, hd, hn, rfl⟩ :=
    slot?_eq_some_iff.1 h
  refine locate_ok_iff.2 ⟨hshort, passed ++ [d ++ [String.ofList cs]], ?_⟩
  rw [steps_eq hcomponents hdot, hslash]
  exact hway.append fun _ => .enter hd hn hfile nofun .arrived

end Passing

section Renaming

/-- Where something stands after a move. -/
def movedTo (l target k : Location) : Location :=
  if l <+: k then target ++ k.drop l.length else k

theorem find?_move (hk : k ≠ []) :
    (t.move l target).find? k =
      (t.nodes.find? fun x => decide (¬ target <+: x.1 ∧ movedTo l target x.1 = k)).map (·.2) := by
  rw [find?, if_neg hk]
  unfold move clear
  dsimp only
  rw [List.find?_map, List.find?_filter, Option.map_map]
  congr 1
  · funext ⟨m, node⟩
    dsimp only [Function.comp]
    split <;> rfl
  · congr 1
    funext ⟨m, node⟩
    have hkept : (!target.isPrefixOf m) = decide (¬ target <+: m) := by
      rw [Bool.eq_iff_iff, decide_eq_true_iff, ← List.isPrefixOf_iff_prefix, Bool.not_eq_true',
        Bool.not_eq_true]
    rw [hkept]
    by_cases hm : l <+: m <;> simp [movedTo, hm]

theorem find?_move_target (hl : l ≠ []) (hapart : ¬ target <+: l) :
    (t.move l target).find? target = t.find? l := by
  rw [find?_move (ne_nil_of_not_isPrefix hapart), find?, if_neg hl]
  refine congrArg (Option.map _) (congrArg (List.find? · t.nodes) ?_)
  funext ⟨m, node⟩
  have hmoved : (¬ target <+: m ∧ movedTo l target m = target) ↔ m = l := by
    unfold movedTo
    constructor
    · rintro ⟨hkept, hm⟩
      split at hm
      next hbelow =>
        obtain ⟨rest, rfl⟩ := hbelow
        simpa using hm
      next => exact absurd (hm ▸ List.prefix_rfl) hkept
    · rintro rfl
      simp [hapart]
  simp only [hmoved]

theorem movedTo_eq_iff {m : Location} (hk : ¬ target <+: k) :
    movedTo l target m = k ↔ m = k ∧ ¬ l <+: k := by
  unfold movedTo
  split
  next hbelow =>
    refine ⟨fun hm => absurd (hm ▸ List.prefix_append _ _) hk, ?_⟩
    rintro ⟨rfl, hnot⟩
    exact absurd hbelow hnot
  next hnot => exact ⟨fun hm => ⟨hm, hm ▸ hnot⟩, And.left⟩

/-- What is at neither end of a move stays. -/
theorem find?_move_apart (hl : ¬ l <+: k) (hk : ¬ target <+: k) :
    (t.move l target).find? k = t.find? k := by
  by_cases hroot : k = []
  · subst hroot
    rfl
  have hmatch : (fun x : Location × Node =>
      decide (¬ target <+: x.1 ∧ movedTo l target x.1 = k)) = fun x => decide (x.1 = k) := by
    funext ⟨m, _⟩
    rw [decide_eq_decide, movedTo_eq_iff hk]
    refine ⟨fun h => h.2.1, ?_⟩
    rintro rfl
    exact ⟨hk, rfl, hl⟩
  rw [find?_move hroot, find?, if_neg hroot, hmatch]

/-- What stands elsewhere after a move stood there before. -/
theorem find?_of_move {node : Node} (hk : ¬ target <+: k)
    (h : (t.move l target).find? k = some node) : t.find? k = some node := by
  by_cases hroot : k = []
  · subst hroot
    exact h
  have hunmoved : ¬ l <+: k := by
    rw [find?_move hroot] at h
    obtain ⟨x, hx, -⟩ := Option.map_eq_some_iff.1 h
    have hfound : ¬ target <+: x.1 ∧ movedTo l target x.1 = k := by simpa using List.find?_some hx
    exact ((movedTo_eq_iff hk).1 hfound.2).2
  rwa [find?_move_apart hunmoved hk] at h

/-- What a successful renaming has done. -/
inductive Renamed (t : FileTree) (l target : Location) : FileTree → Prop where

  | same : l = target → Renamed t l target t

  | moved : ¬ l <+: target → ¬ target <+: l → Renamed t l target (t.move l target)

theorem Renamed.of_isPrefixOf (h : ¬ l.isPrefixOf target = true)
    (h' : ¬ target.isPrefixOf l = true) : Renamed t l target (t.move l target) :=
  .moved (fun hbelow => h (List.isPrefixOf_iff_prefix.2 hbelow))
    fun hbelow => h' (List.isPrefixOf_iff_prefix.2 hbelow)

/-- What may be renamed stands somewhere on the same filesystem, is no file whose name ends in a
slash, and replaces nothing or what is of its kind. -/
structure Renames (t : FileTree) (source destination : Path) (l target : Location) (node : Node) :
    Prop where
  atSource : t.slot? source = .ok (some l)
  atDestination : t.slot? destination = .ok (some target)
  filesystem : t.filesystem l.dropLast = t.filesystem target.dropLast
  found : t.find? l = some node
  plain : node.isDirectory = false → source.endsInSlash = false ∧ destination.endsInSlash = false
  replaces : ∀ old, t.find? target = some old → old.isDirectory = node.isDirectory

/-- Of what a file replaces only a link can be passed above. -/
theorem Renames.runsThrough {source destination : Path}
    (h : Renames t source destination l target (.file content mode accessed))
    (habove : t.PassesAbove destination target) : t.RunsThrough destination target := by
  refine ⟨?_, habove⟩
  obtain ⟨passed, d, hway, -, hmem⟩ := id habove
  obtain ⟨old, hold⟩ := hway.found target hmem
  cases old with
  | file => exact absurd habove ((DeadEnd.of_file hold).not_passesAbove destination)
  | directory => cases h.replaces _ hold
  | link link => exact ⟨link, hold⟩

theorem allOrNothing_rename (source destination : Path) (t : FileTree) :
    AllOrNothing (rename source destination) t fun _ u => ∃ l target node,
      Renames t source destination l target node ∧ Renamed t l target u := by
  have hplain : ∀ {node : Node},
      ¬ (!node.isDirectory && (source.endsInSlash || destination.endsInSlash)) = true →
        node.isDirectory = false →
          source.endsInSlash = false ∧ destination.endsInSlash = false := by
    intro node hcheck hnode
    simpa [hnode] using hcheck
  unfold rename
  refine (allOrNothing_slot _ source t).bind fun l hl =>
    (allOrNothing_slot _ destination t).bind fun target htarget => .bind .get ?_
  rintro t rfl
  repeat' split
  all_goals first | exact .throw _ | skip
  next node hfind hsame hcheck hsystem =>
    refine .pure ⟨l, target, node,
      ⟨hl, htarget, Decidable.not_not.1 hsystem, hfind, hplain hcheck, fun old hold => ?_⟩,
      .same hsame⟩
    rw [← hsame, hfind] at hold
    rw [Option.some.inj hold]
  next node hfind _ _ hnone hapart hnot hcheck hsystem =>
    refine .set ⟨l, target, node,
      ⟨hl, htarget, Decidable.not_not.1 hsystem, hfind, hplain hcheck, fun old hold => ?_⟩,
      .of_isPrefixOf hnot hapart⟩
    cases hnone.symm.trans hold
  next node hfind _ _ old hold _ hkind hkind' hapart hnot hcheck hsystem =>
    refine .set ⟨l, target, node,
      ⟨hl, htarget, Decidable.not_not.1 hsystem, hfind, hplain hcheck, fun old' hold' => ?_⟩,
      .of_isPrefixOf hnot hapart⟩
    obtain rfl := Option.some.inj (hold.symm.trans hold')
    revert hkind hkind'
    cases old.isDirectory <;> cases node.isDirectory <;> simp

theorem outcome_perform_rename (source destination : Path) (t : FileTree) :
    (FileCall.rename source destination).perform.outcome t =
      if '\x00' ∈ source.text.toList ∨ '\x00' ∈ destination.text.toList then
        (.error .nulInPath, t)
      else
        (((rename source destination).outcome t).1.mapError .system,
          ((rename source destination).outcome t).2) := by
  have hplain : (requirePlain source).outcome t =
      (if '\x00' ∈ source.text.toList then .error .nulInPath else .ok (), t) := by
    unfold requirePlain
    simp only [List.contains_iff_mem]
    split <;> rfl
  change (requirePlain source >>= fun _ => onPath destination (rename source destination)).outcome t
    = _
  rw [outcome_bind, hplain]
  by_cases hsource : '\x00' ∈ source.text.toList
  · rw [if_pos hsource, if_pos (.inl hsource)]
  · simp only [hsource, if_false, false_or]
    exact outcome_onPath _ _ _

theorem rename_of_perform {source destination : Path}
    (h : (FileCall.rename source destination).perform.outcome t = (.ok (), t')) :
    (rename source destination).outcome t = (.ok (), t') := by
  rw [outcome_perform_rename] at h
  split at h
  · cases h
  · rcases hrename : (rename source destination).outcome t with ⟨cause | _, v⟩ <;>
      rw [hrename] at h <;> cases h
    rfl

/-- A file takes the place of another one, or of nothing. -/
theorem outcome_rename {source destination : Path}
    (hsource : t.slot? source = .ok (some l))
    (hdestination : t.slot? destination = .ok (some target))
    (hfilesystem : t.filesystem l.dropLast = t.filesystem target.dropLast)
    (hfile : t.find? l = some (.file content mode accessed))
    (hslash : source.endsInSlash = false) (hslash' : destination.endsInSlash = false)
    (hnot : ¬ l <+: target) (hapart : ¬ target <+: l) (hempty : t.children target = [])
    (hold : ∀ node, t.find? target = some node → node.isDirectory = false) :
    (rename source destination).outcome t = (.ok (), t.move l target) := by
  have hne : l ≠ target := fun heq => hnot (heq ▸ List.prefix_rfl)
  unfold rename
  rw [outcome_bind_ok (by rw [outcome_slot, hsource]),
    outcome_bind_ok (by rw [outcome_slot, hdestination]), outcome_bind_ok (outcome_get t)]
  have hnode : (Node.file content mode accessed).isDirectory = false := rfl
  simp only [hfilesystem, hfile, hnode, hslash, hslash', hne, List.isPrefixOf_iff_prefix, hnot,
    hapart, hempty, ne_eq, not_true_eq_false, ↓reduceIte, Bool.not_false, Bool.or_self,
    Bool.and_false, Bool.false_eq_true, Bool.and_true, Bool.false_and, List.isEmpty_nil,
    Bool.not_true]
  split
  · rfl
  next old hfind =>
    rw [hold old hfind]
    rfl

theorem Renamed.find?_target (h : Renamed t l target t')
    (hfile : t.find? l = some (.file content mode accessed)) :
    t'.find? target = some (.file content mode accessed) := by
  cases h with
  | same hsame => rwa [← hsame]
  | moved _ hapart =>
    rw [find?_move_target (DeadEnd.of_file hfile).ne_nil hapart, hfile]

/-- A way to a directory has been there before a file was moved, and it does not pass what the file
has replaced. -/
theorem Way.of_renamed {p : Path} (hway : t'.Way linkLimit [] p.components.dropLast passed r)
    (h : Renamed t l target t') (hfile : t.find? l = some (.file content mode accessed))
    (hd : t'.IsDirectoryAt r) :
    t.Way linkLimit [] p.components.dropLast passed r ∧ target ∉ passed := by
  have hend : t'.DeadEnd target := .of_file (h.find?_target hfile)
  have hpassed : target ∉ passed := by
    refine hway.notMem_passed (root_notMem_tail_dropLast p) hend ?_
    rintro rfl
    exact hend.not_isDirectoryAt hd
  cases h with
  | same => exact ⟨hway, hpassed⟩
  | moved =>
    have hroot : ¬ target <+: [] := fun hbelow => hend.ne_nil (List.prefix_nil.1 hbelow)
    refine ⟨(hway.transfer (P := fun k => ¬ target <+: k) ?_ find?_of_move hroot
      (hway.notBelow hroot hpassed).1).1, hpassed⟩
    exact fun hk hm hbelow => hk (hbelow.trans hm)

/-- A file that has been moved to where a path names an entry is what the path leads to, unless it
leads nowhere any more, as it does if what the file has replaced is passed above. -/
theorem Renamed.eq_of_locate {p : Path} (h : Renamed t l target t')
    (hslot : t.slot? p = .ok (some target))
    (hfile : t.find? l = some (.file content mode accessed)) (hlocate : t'.locate p = .ok r) :
    r = target ∧ ¬ t.PassesAbove p target := by
  obtain ⟨-, hdot, front, cs, passed, d, hcomponents, hway, hd, -, rfl⟩ :=
    slot?_eq_some_iff.1 hslot
  obtain ⟨-, passed', hsteps⟩ := locate_ok_iff.1 hlocate
  rw [steps_eq hcomponents hdot] at hsteps
  obtain ⟨_, passed', d', _, -, hfirst, hsecond⟩ := hsteps.split
  obtain ⟨hdirectory, hend⟩ := hsecond.name_cases
  have hfront : p.components.dropLast = front := by rw [hcomponents, List.dropLast_concat]
  rw [← hfront] at hfirst hway
  obtain ⟨hback, hpassed⟩ := hfirst.of_renamed h hfile hdirectory
  obtain ⟨-, rfl⟩ := hback.unique hway
  refine ⟨hend (by split <;> simp) _ _ _ (h.find?_target hfile), ?_⟩
  rintro ⟨_, _, hway', -, hmem⟩
  obtain ⟨rfl, -⟩ := hway'.unique hback
  exact hpassed hmem

/-- A file is what the path leads to that it was moved to, unless what it has replaced is passed
above. -/
theorem Renamed.locate {p : Path} (h : Renamed t l target t')
    (hslot : t.slot? p = .ok (some target)) (hslash : p.endsInSlash = false)
    (hfile : t.find? l = some (.file content mode accessed)) (habove : ¬ t.PassesAbove p target) :
    t'.locate p = .ok target := by
  have hend : t.DeadEnd l := .of_file hfile
  have hslot' : t'.slot? p = .ok (some target) := by
    cases h with
    | same => exact hslot
    | moved _ hapart =>
      have htarget := ne_nil_of_not_isPrefix hapart
      refine slot?_keep [l, target] hslot (by simp [hend.ne_nil.symm, htarget.symm])
        (by simp [hend.not_passesAbove p, habove]) ?_
      exact fun hk => find?_move_apart (hk.notBelow _ (by simp)) (hk.notBelow _ (by simp))
  exact locate_of_slot? hslot' hslash (h.find?_target hfile)

/-- A file that has been moved is what the path leads to that it was moved to. -/
theorem find?_of_rename {source destination : Path}
    (h : (rename source destination).outcome t = (.ok (), t'))
    (hsource : t.slot? source = .ok (some l))
    (hfile : t.find? l = some (.file content mode accessed))
    (hleads : t'.Leads destination passed r) :
    t'.find? r = some (.file content mode accessed) := by
  obtain ⟨_, target, _, hrenames, hrenamed⟩ := (allOrNothing_rename source destination t).of_ok h
  cases hsource.symm.trans hrenames.atSource
  obtain ⟨rfl, -⟩ := hrenamed.eq_of_locate hrenames.atDestination hfile
    (locate_ok_iff.2 ⟨hleads.short, _, hleads.way⟩)
  exact hrenamed.find?_target hfile

/-- Where a directory can be found already, nothing is made. -/
theorem outcome_makeDirectories {p : Path} {above : List Path} (hplain : '\x00' ∉ p.text.toList)
    (habove : p.withAbove = p :: above) (hslot : t.slot? p = .ok (some l))
    (hdirectory : t.isDirectory p = true) (hfound : (t.find? l).isSome = true) :
    (FileCall.makeDirectories p).perform.outcome t = (.ok (), t) := by
  have hmake : (makeDirectory p).outcome t = (.error .alreadyExists, t) := by
    unfold makeDirectory
    rw [outcome_bind_ok (by rw [outcome_slot, hslot]), outcome_bind_ok (outcome_get t),
      if_pos hfound]
    rfl
  have hmakeAll : (makeDirectories p).outcome t = (.ok (), t) := by
    unfold makeDirectories
    rw [habove, makeDirectoriesFrom, outcome_bind_ok (outcome_attempt _ _), hmake]
    dsimp only
    rw [outcome_bind_ok (outcome_get t), if_pos hdirectory]
    rfl
  exact outcome_onPath_of_ok hplain hmakeAll

/-- Where a directory can be found once those above it have been made, no more is made. -/
theorem outcome_makeDirectoriesFrom_missing {p : Path} {above : List Path}
    (hmissing : t.slot? p = .error .noEntry)
    (habove : (makeDirectoriesFrom above).outcome t = (.ok (), t'))
    (hslot : t'.slot? p = .ok none) (hdirectory : t'.isDirectory p = true) :
    (makeDirectoriesFrom (p :: above)).outcome t = (.ok (), t') := by
  have hfirst : (makeDirectory p).outcome t = (.error .noEntry, t) :=
    outcome_bind_error (by rw [outcome_slot, hmissing]) _
  have hsecond : (makeDirectory p).outcome t' = (.error .alreadyExists, t') :=
    outcome_bind_error (by rw [outcome_slot, hslot]) _
  rw [makeDirectoriesFrom, outcome_bind_ok (outcome_attempt _ _), hfirst]
  dsimp only
  rw [outcome_bind_ok habove, outcome_bind_ok (outcome_attempt _ _), hsecond]
  dsimp only
  rw [outcome_bind_ok (outcome_get _), if_pos hdirectory]
  rfl

/-- A directory is made where nothing stands yet. -/
theorem outcome_makeDirectoriesFrom_new {p : Path} {above : List Path}
    (hslot : t.slot? p = .ok (some l)) (hfree : t.find? l = none) :
    (makeDirectoriesFrom (p :: above)).outcome t = (.ok (), t.put l (.directory t.now)) := by
  have hmake : (makeDirectory p).outcome t = (.ok (), t.put l (.directory t.now)) := by
    unfold makeDirectory
    rw [outcome_bind_ok (by rw [outcome_slot, hslot]), outcome_bind_ok (outcome_get t),
      if_neg (by simp [hfree])]
    rfl
  rw [makeDirectoriesFrom, outcome_bind_ok (outcome_attempt _ _), hmake]
  rfl

end Renaming

end RemoteAgent.FileTree
