import RemoteAgent.FileProgram
import RemoteAgent.Proofs.Effect
import RemoteAgent.Proofs.FileTree.Way
import RemoteAgent.Proofs.Path.Names

/-! # Calls on file trees

What is told about a directory and about its entries, and what happens when an entry is removed, all
in terms of the ways through the tree.
-/

namespace RemoteAgent.FileTree

open Effect

variable {t t' : FileTree} {p : Path} {l : Location} {passed : List Location} {name : String}

/-- A path can be handed to the system and leads to a location. -/
structure Leads (t : FileTree) (p : Path) (passed : List Location) (l : Location) : Prop where
  plain : '\x00' ∉ p.text.toList
  short : requirePath p = .ok ()
  way : t.Way linkLimit [] p.steps passed l

/-- The steps of a path to a directory lead there with a slash at the end or without one. -/
theorem Leads.components {p : Path} (h : t.Leads p passed l) :
    ∃ passed, t.Way linkLimit [] p.components passed l := by
  obtain ⟨links, passed₁, m, passed₂, -, hfirst, hsecond⟩ := h.way.split
  split at hsecond
  · cases hsecond with
    | here _ hsecond =>
      cases hsecond
      exact ⟨_, hfirst⟩
  · cases hsecond
    exact ⟨_, hfirst⟩

theorem leads_of_components {p : Path} (hplain : '\x00' ∉ p.text.toList)
    (hshort : requirePath p = .ok ()) (h : t.Way linkLimit [] p.components passed l)
    (hd : t.IsDirectoryAt l) : t.Leads p passed l := by
  refine ⟨hplain, hshort, ?_⟩
  unfold Path.steps
  split
  · exact h.append_here hd
  · rwa [List.append_nil]

theorem Leads.unique {passed' : List Location} {l' : Location} (h : t.Leads p passed l)
    (h' : t.Leads p passed' l') : passed = passed' ∧ l = l' :=
  h.way.unique h'.way

theorem Leads.of_clearAll {ls : List Location} (hroot : [] ∉ ls)
    (h : (t.clearAll ls).Leads p passed l) : t.Leads p passed l :=
  ⟨h.plain, h.short, h.way.of_clearAll hroot⟩

/-- What a path leads to stays if all that is passed stays. -/
theorem Leads.clearAll {ls : List Location} (hroot : [] ∉ ls) (h : t.Leads p passed l)
    (hpassed : ∀ k ∈ passed, Avoids ls k) :
    (t.clearAll ls).Leads p passed l ∧ (t.clearAll ls).find? l = t.find? l := by
  obtain ⟨hway, hl⟩ := h.way.clearAll (.nil hroot) hpassed
  exact ⟨⟨h.plain, h.short, hway⟩, find?_clearAll_of_avoids hl⟩

/-- A path leads nowhere once something has been cleared that it passes. -/
theorem Leads.not_clear {k m l' : Location} {passed' : List Location} (h : t.Leads p passed l)
    (hk : k ∈ passed) (hm : m ≠ []) (hbelow : m <+: k) : ¬ (t.clear m).Leads p passed' l' := by
  intro h'
  have hroot : [] ∉ [m] := by simpa using hm.symm
  obtain ⟨rfl, -⟩ := h.unique (Leads.of_clearAll hroot h')
  obtain ⟨node, hfind⟩ := h'.way.found k hk
  rw [find?_clear _ _ _ hm, if_pos (List.isPrefixOf_iff_prefix.2 hbelow)] at hfind
  cases hfind

section Outcomes

variable {α : Type}

theorem outcome_query (f : FileTree → Except SystemError α) (t : FileTree) :
    (query f).outcome t = (f t, t) := by
  rw [query, outcome_bind_ok (outcome_get t), outcome_ofExcept]

theorem outcome_onPath (p : Path) (step : Effect FileTree SystemError α) (t : FileTree) :
    (onPath p step).outcome t =
      if '\x00' ∈ p.text.toList then (.error .nulInPath, t)
      else ((step.outcome t).1.mapError .system, (step.outcome t).2) := by
  unfold onPath requirePlain
  by_cases h : '\x00' ∈ p.text.toList
  · rw [if_pos h]
    exact outcome_bind_error (by simp [h]) _
  · rw [if_neg h, ← outcome_mapError]
    exact outcome_bind_ok (a := ()) (by simp [h]) _

theorem outcome_onPath_of_ok {step : Effect FileTree SystemError α} {a : α}
    (hplain : '\x00' ∉ p.text.toList) (h : step.outcome t = (.ok a, t')) :
    (onPath p step).outcome t = (.ok a, t') := by
  rw [outcome_onPath, if_neg hplain, h]
  rfl

theorem allOrNothing_onPath {step : Effect FileTree SystemError α} {P : α → FileTree → Prop}
    (h : AllOrNothing step t P) (p : Path) : AllOrNothing (onPath p step) t P := by
  unfold AllOrNothing
  rw [outcome_onPath, ← outcome_mapError]
  split
  · exact .inl ⟨_, rfl⟩
  · exact h.mapError IoError.system

theorem allOrNothing_query (f : FileTree → Except SystemError α) (t : FileTree) :
    AllOrNothing (query f) t fun a u => u = t ∧ f t = .ok a := by
  unfold AllOrNothing
  rw [outcome_query]
  rcases f t with cause | a
  · exact .inl ⟨cause, rfl⟩
  · exact .inr ⟨a, t, rfl, rfl, rfl⟩

theorem locate_ok_iff : t.locate p = .ok l ↔
    requirePath p = .ok () ∧ ∃ passed, t.Way linkLimit [] p.steps passed l := by
  unfold locate
  rw [bind_eq_ok_iff]
  constructor
  · rintro ⟨_, hshort, hwalk⟩
    exact ⟨hshort, exists_way hwalk⟩
  · rintro ⟨hshort, passed, hway⟩
    exact ⟨(), hshort, hway.walk_eq⟩

theorem node_ok_iff {node : Node} :
    t.node p = .ok node ↔ ∃ l, t.locate p = .ok l ∧ t.find? l = some node := by
  unfold FileTree.node
  rw [bind_eq_ok_iff]
  refine exists_congr fun l => and_congr_right fun _ => ?_
  split
  next h => rw [h]; exact ⟨fun h => by cases h; rfl, fun h => by cases h; rfl⟩
  next h => rw [h]; exact ⟨nofun, nofun⟩

end Outcomes

section Queries

/-- What a path leads to was last accessed at some time. -/
def Accessed (t : FileTree) (p : Path) (passed : List Location) (time : Timestamp) : Prop :=
  ∃ l node, t.Leads p passed l ∧ t.find? l = some node ∧ node.accessed? = some time

theorem ok_of_onPath {α : Type} {step : Effect FileTree SystemError α} {a : α} :
    ((onPath p step).outcome t).1 = .ok a ↔
      '\x00' ∉ p.text.toList ∧ (step.outcome t).1 = .ok a := by
  rw [outcome_onPath]
  split
  next h => exact ⟨nofun, fun h' => absurd h h'.1⟩
  next h =>
    rcases (step.outcome t).1 with cause | b
    · exact ⟨nofun, fun h' => nomatch h'.2⟩
    · exact ⟨fun h' => ⟨h, by cases h'; rfl⟩, fun h' => by cases h'.2; rfl⟩

theorem onPath_query_snd {α : Type} (f : FileTree → Except SystemError α) :
    ((onPath p (query f)).outcome t).2 = t := by
  rw [outcome_onPath, outcome_query]
  split <;> rfl

theorem accessTime_snd (p : Path) (t : FileTree) :
    ((FileCall.accessTime p).perform.outcome t).2 = t :=
  onPath_query_snd _

theorem list_snd (p : Path) (t : FileTree) :
    ((FileCall.list p).perform.outcome t).2 = t :=
  onPath_query_snd _

theorem accessTime_ok_iff {time : Timestamp} :
    ((FileCall.accessTime p).perform.outcome t).1 = .ok time ↔
      ∃ passed, t.Accessed p passed time := by
  have hok := @ok_of_onPath t p _ (accessTime p) time
  rw [accessTime, outcome_query, bind_eq_ok_iff] at hok
  refine hok.trans ?_
  constructor
  · rintro ⟨hplain, node, hnode, haccessed⟩
    obtain ⟨l, hlocate, hfind⟩ := node_ok_iff.1 hnode
    obtain ⟨hshort, passed, hway⟩ := locate_ok_iff.1 hlocate
    refine ⟨passed, l, node, ⟨hplain, hshort, hway⟩, hfind, ?_⟩
    split at haccessed
    next h =>
      cases haccessed
      exact h
    next => cases haccessed
  · rintro ⟨passed, l, node, ⟨hplain, hshort, hway⟩, hfind, haccessed⟩
    refine ⟨hplain, node, node_ok_iff.2 ⟨l, locate_ok_iff.2 ⟨hshort, passed, hway⟩, hfind⟩, ?_⟩
    rw [haccessed]
    rfl

/-- What a directory holds, as a listing tells it. -/
def entries (t : FileTree) (l : Location) : List Entry :=
  (t.children l).map fun (name, node) => ⟨name, node.isDirectory⟩

theorem list_ok_iff {listed : List Entry} :
    ((FileCall.list p).perform.outcome t).1 = .ok listed ↔
      ∃ passed l, t.Leads p passed l ∧ t.IsDirectoryAt l ∧ listed = t.entries l := by
  have hok := @ok_of_onPath t p _ (list p) listed
  rw [list, outcome_query, bind_eq_ok_iff] at hok
  refine hok.trans ?_
  constructor
  · rintro ⟨hplain, l, hlocate, h⟩
    obtain ⟨hshort, passed, hway⟩ := locate_ok_iff.1 hlocate
    obtain ⟨_, hd, hlisted⟩ := bind_eq_ok_iff.1 h
    cases hlisted
    exact ⟨passed, l, ⟨hplain, hshort, hway⟩, requireDirectory_ok_iff.1 hd, rfl⟩
  · rintro ⟨passed, l, ⟨hplain, hshort, hway⟩, hd, rfl⟩
    exact ⟨hplain, l, locate_ok_iff.2 ⟨hshort, passed, hway⟩,
      bind_eq_ok_iff.2 ⟨(), requireDirectory_ok_iff.2 hd, rfl⟩⟩

/-- A directory that was listed is listed again or is gone once something has been cleared. -/
theorem list_clearAll {ls : List Location} (hroot : [] ∉ ls) (hleads : t.Leads p passed l)
    (hdirectory : t.IsDirectoryAt l) :
    ((FileCall.list p).perform.outcome (t.clearAll ls)).1 = .error (.system .noEntry) ∨
      ((FileCall.list p).perform.outcome (t.clearAll ls)).1 = .ok ((t.clearAll ls).entries l) := by
  have hmissing : (do
        let l ← (t.clearAll ls).locate p
        (t.clearAll ls).requireDirectory l
        return ((t.clearAll ls).entries l)) = .error .noEntry →
      ((FileCall.list p).perform.outcome (t.clearAll ls)).1 = .error (.system .noEntry) := by
    intro h
    have honPath := outcome_onPath p (list p) (t.clearAll ls)
    rw [if_neg hleads.plain, list, outcome_query] at honPath
    refine (congrArg Prod.fst honPath).trans ?_
    exact congrArg (Except.mapError IoError.system) h
  have hlocate : (t.clearAll ls).locate p = (t.clearAll ls).walk false linkLimit [] p.steps := by
    rw [locate, hleads.short]
    rfl
  rcases walk_clearAll hroot hleads.way with hwalk | hwalk
  · rcases requireDirectory_clearAll hroot hdirectory with hd | hd
    · obtain ⟨passed', hway⟩ := exists_way hwalk
      exact .inr (list_ok_iff.2 ⟨passed', l, ⟨hleads.plain, hleads.short, hway⟩, hd, rfl⟩)
    · refine .inl (hmissing ?_)
      rw [hlocate, hwalk]
      exact congrArg (· >>= fun _ => pure ((t.clearAll ls).entries l)) hd
  · refine .inl (hmissing ?_)
    rw [hlocate, hwalk]
    rfl

end Queries

section Removing

/-- A path names an entry of a directory if its last component is a name. -/
theorem slot?_eq_some_iff : t.slot? p = .ok (some l) ↔
    requirePath p = .ok () ∧ p.endsInDot = false ∧ ∃ front cs passed d,
      p.components = front ++ [.name cs] ∧ t.Way linkLimit [] front passed d ∧
        t.IsDirectoryAt d ∧ requireName (String.ofList cs) = .ok () ∧
          l = d ++ [String.ofList cs] := by
  unfold slot?
  rw [bind_eq_ok_iff]
  constructor
  · rintro ⟨_, hshort, h⟩
    dsimp only at h
    split at h
    next cs hlast =>
      obtain ⟨front, hcomponents⟩ := List.getLast?_eq_some_iff.1 hlast
      obtain ⟨d, hwalk, h⟩ := bind_eq_ok_iff.1 h
      obtain ⟨_, hd, h⟩ := bind_eq_ok_iff.1 h
      split at h
      · cases h
      next hdot =>
      obtain ⟨_, hn, h⟩ := bind_eq_ok_iff.1 h
      rw [if_neg hdot, hcomponents, List.dropLast_concat] at hwalk
      obtain ⟨passed, hway⟩ := exists_way hwalk
      cases h
      exact ⟨hshort, eq_false_of_ne_true hdot, front, cs, passed, d, hcomponents, hway,
        requireDirectory_ok_iff.1 hd, hn, rfl⟩
    next =>
      obtain ⟨_, -, h⟩ := bind_eq_ok_iff.1 h
      obtain ⟨_, -, h⟩ := bind_eq_ok_iff.1 h
      cases h
  · rintro ⟨hshort, hdot, front, cs, passed, d, hcomponents, hway, hd, hn, rfl⟩
    refine ⟨(), hshort, ?_⟩
    simp only [hcomponents, List.getLast?_concat, hdot, List.dropLast_concat, Bool.false_eq_true,
      if_false]
    exact bind_eq_ok_iff.2 ⟨d, hway.walk_eq, bind_eq_ok_iff.2
      ⟨(), requireDirectory_ok_iff.2 hd, bind_eq_ok_iff.2 ⟨(), hn, rfl⟩⟩⟩

theorem slot?_join (hp : p.text ≠ "") (h : Path.IsName name) {found : Option Location} :
    t.slot? (p.join name) = .ok found ↔
      requirePath (p.join name) = .ok () ∧ ∃ passed l, t.Way linkLimit [] p.components passed l ∧
        t.IsDirectoryAt l ∧ requireName name = .ok () ∧ found = some (l ++ [name]) := by
  unfold slot?
  simp only [Path.components_join hp h, List.getLast?_concat, Path.endsInDot_join hp h,
    List.dropLast_concat, Bool.false_eq_true, if_false, String.ofList_toList]
  rw [bind_eq_ok_iff]
  constructor
  · rintro ⟨_, hshort, h⟩
    obtain ⟨l, hwalk, h⟩ := bind_eq_ok_iff.1 h
    obtain ⟨_, hd, h⟩ := bind_eq_ok_iff.1 h
    obtain ⟨_, hn, h⟩ := bind_eq_ok_iff.1 h
    obtain ⟨passed, hway⟩ := exists_way hwalk
    cases h
    exact ⟨hshort, passed, l, hway, requireDirectory_ok_iff.1 hd, hn, rfl⟩
  · rintro ⟨hshort, passed, l, hway, hd, hn, rfl⟩
    refine ⟨(), hshort, bind_eq_ok_iff.2 ⟨l, hway.walk_eq, ?_⟩⟩
    exact bind_eq_ok_iff.2 ⟨(), requireDirectory_ok_iff.2 hd, bind_eq_ok_iff.2 ⟨(), hn, rfl⟩⟩

theorem outcome_slot (otherwise : SystemError) (p : Path) (t : FileTree) :
    (slot otherwise p).outcome t =
      (match t.slot? p with
        | .ok (some l) => .ok l
        | .ok none => .error otherwise
        | .error cause => .error cause, t) := by
  unfold slot
  rw [outcome_bind, outcome_query]
  rcases t.slot? p with cause | _ | l <;> rfl

theorem allOrNothing_slot (otherwise : SystemError) (p : Path) (t : FileTree) :
    AllOrNothing (slot otherwise p) t fun l u => u = t ∧ t.slot? p = .ok (some l) := by
  unfold slot
  refine (allOrNothing_query _ t).bind fun found hfound => ?_
  split
  · exact .pure ⟨rfl, hfound⟩
  · exact .throw _

theorem outcome_removeFile {content : List UInt8} {mode : Nat} {accessed : Timestamp}
    (hplain : '\x00' ∉ p.text.toList) (hslash : p.endsInSlash = false)
    (hslot : t.slot? p = .ok (some l)) (hfile : t.find? l = some (.file content mode accessed)) :
    (FileCall.removeFile p).perform.outcome t = (.ok (), t.clear l) := by
  have hstep : (removeFile p).outcome t = (.ok (), t.clear l) := by
    unfold removeFile
    rw [outcome_bind_ok (by rw [outcome_slot, hslot]), outcome_bind_ok (outcome_get t)]
    simp [hfile, hslash]
  exact outcome_onPath_of_ok hplain hstep

/-- A file or a link is removed, or all stays as it was. -/
theorem allOrNothing_removeFile (p : Path) (t : FileTree) :
    AllOrNothing (removeFile p) t fun _ u => ∃ l, t.slot? p = .ok (some l) ∧ u = t.clear l := by
  unfold removeFile
  refine (allOrNothing_slot _ p t).bind fun l hslot => ?_
  refine .bind .get ?_
  rintro _ rfl
  split
  · exact .throw _
  · split
    · exact .throw _
    · exact .set ⟨l, hslot, rfl⟩
  · exact .throw _

/-- An entry that is a directory or a link is removed with all below it. -/
theorem outcome_removeTree {node : Node} (hplain : '\x00' ∉ (p.join name).text.toList)
    (hslot : t.slot? (p.join name) = .ok (some l)) (hfind : t.find? l = some node)
    (hnode : ∀ content mode accessed, node ≠ .file content mode accessed) :
    (FileCall.removeTree (p.join name)).perform.outcome t = (.ok (), t.clear l) := by
  have hstep : (removeTree (p.join name)).outcome t = (.ok (), t.clear l) := by
    unfold removeTree
    rw [outcome_bind_ok (a := l) (by rw [outcome_slot, hslot]), outcome_bind_ok (outcome_get t)]
    cases node with
    | file content mode accessed => exact absurd rfl (hnode content mode accessed)
    | directory | link => simp [hfind]
  exact outcome_onPath_of_ok hplain hstep

theorem allOrNothing_removeTree (p : Path) (t : FileTree) :
    AllOrNothing (removeTree p) t fun _ u => ∃ l, t.slot? p = .ok (some l) ∧ u = t.clear l := by
  unfold removeTree
  refine (allOrNothing_slot _ p t).bind fun l hslot => .bind .get ?_
  rintro _ rfl
  split
  · exact .set ⟨l, hslot, rfl⟩
  · exact .set ⟨l, hslot, rfl⟩
  · exact .throw _
  · exact .throw _

/-- Whatever becomes of a removal, at most one entry is taken out, and what is below it. -/
theorem removeTree_cases (p : Path) (t : FileTree) :
    ((FileCall.removeTree p).perform.outcome t).2 = t ∨
      ∃ l, t.slot? p = .ok (some l) ∧
        ((FileCall.removeTree p).perform.outcome t).2 = t.clear l := by
  rcases allOrNothing_onPath (allOrNothing_removeTree p t) p with
    ⟨_, h⟩ | ⟨_, _, h, l, hslot, rfl⟩
  · exact .inl (congrArg Prod.snd h)
  · exact .inr ⟨l, hslot, congrArg Prod.snd h⟩

end Removing

end RemoteAgent.FileTree
