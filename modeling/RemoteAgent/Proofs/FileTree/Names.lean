import Mathlib.Data.List.Nodup
import RemoteAgent.FileProgram
import RemoteAgent.Proofs.FileTree.Calls

/-! # Names in file trees

Everything in a file tree stands under names, and only one thing at each location. No call puts
anything under what is no name.
-/

namespace RemoteAgent.FileTree

open Effect RemoteAgent.Path

variable {t : FileTree} {l : Location} {name : String} {node : Node}

/-- Whether all that leads to a location is a name. -/
def IsNamed (l : Location) : Prop :=
  ∀ name ∈ l, IsName name

/-- Everything stands under names. -/
def Named (t : FileTree) : Prop :=
  ∀ x ∈ t.nodes, IsNamed x.1

/-- Everything stands under names, and only one thing at each location. -/
structure WellFormed (t : FileTree) : Prop where
  named : t.Named
  unique : (t.nodes.map (·.1)).Nodup

instance (t : FileTree) : Decidable t.Named :=
  inferInstanceAs (Decidable (∀ x ∈ t.nodes, ∀ name ∈ x.1, IsName name))

section Finding

theorem mem_of_find? (hl : l ≠ []) (h : t.find? l = some node) : (l, node) ∈ t.nodes := by
  rw [find?, if_neg hl, Option.map_eq_some_iff] at h
  obtain ⟨⟨k, _⟩, hfound, rfl⟩ := h
  obtain rfl : k = l := by simpa using List.find?_some hfound
  exact List.mem_of_find?_eq_some hfound

theorem WellFormed.find?_of_mem (h : t.WellFormed) (hl : l ≠ []) (hmem : (l, node) ∈ t.nodes) :
    t.find? l = some node := by
  have hsome : (t.nodes.find? (·.1 = l)).isSome := List.find?_isSome.2 ⟨_, hmem, by simp⟩
  obtain ⟨x, hx⟩ := Option.isSome_iff_exists.1 hsome
  have hkey : x.1 = l := by simpa using List.find?_some hx
  have heq : x = (l, node) :=
    List.inj_on_of_nodup_map h.unique (List.mem_of_find?_eq_some hx) hmem hkey
  rw [find?, if_neg hl, hx, heq]
  rfl

end Finding

section Clearing

theorem Named.clear (h : t.Named) (l : Location) : (t.clear l).Named :=
  fun x hx => h x (List.mem_of_mem_filter hx)

theorem WellFormed.clear (h : t.WellFormed) (l : Location) : (t.clear l).WellFormed :=
  ⟨h.named.clear l, h.unique.sublist (List.filter_sublist.map _)⟩

theorem WellFormed.clearAll (h : t.WellFormed) (ls : List Location) :
    (t.clearAll ls).WellFormed := by
  induction ls generalizing t with
  | nil => exact h
  | cons l ls ih => exact ih (h.clear l)

end Clearing

section Children

theorem mem_children_iff : (name, node) ∈ t.children l ↔ (l ++ [name], node) ∈ t.nodes := by
  unfold children
  rw [List.mem_filterMap]
  constructor
  · rintro ⟨⟨k, node'⟩, hmem, h⟩
    dsimp only at h
    split at h
    next last hlast =>
      obtain ⟨front, rfl⟩ := List.getLast?_eq_some_iff.1 hlast
      rw [List.dropLast_concat] at h
      split at h
      next hk =>
        cases h
        rwa [← hk]
      · cases h
    · cases h
  · intro hmem
    exact ⟨_, hmem, by simp⟩

theorem WellFormed.mem_entries_iff (h : t.WellFormed) {e : Entry} :
    e ∈ t.entries l ↔
      ∃ node, t.find? (l ++ [e.name]) = some node ∧ e.isDirectory = node.isDirectory := by
  have hne : l ++ [e.name] ≠ [] := by simp
  unfold entries
  rw [List.mem_map]
  constructor
  · rintro ⟨⟨name, node⟩, hmem, rfl⟩
    exact ⟨node, h.find?_of_mem hne (mem_children_iff.1 hmem), rfl⟩
  · rintro ⟨node, hfind, hdirectory⟩
    refine ⟨(e.name, node), mem_children_iff.2 (mem_of_find? hne hfind), ?_⟩
    dsimp only
    rw [← hdirectory]

theorem Named.isName_of_mem_entries (h : t.Named) {e : Entry} (he : e ∈ t.entries l) :
    IsName e.name := by
  obtain ⟨⟨name, node⟩, hmem, rfl⟩ := List.mem_map.1 he
  exact h _ (mem_children_iff.1 hmem) name (by simp)

/-- A directory is listed without repetitions. -/
theorem WellFormed.nodup_entries (h : t.WellFormed) (l : Location) :
    ((t.entries l).map (·.name)).Nodup := by
  have hnames : (t.entries l).map (·.name) =
      (t.nodes.map (·.1)).filterMap fun k =>
        k.getLast?.bind fun name => if k.dropLast = l then some name else none := by
    unfold entries children
    rw [List.map_map, List.map_filterMap, List.filterMap_map]
    congr 1
    funext ⟨k, node⟩
    cases hlast : k.getLast? with
    | none => simp [hlast]
    | some last => by_cases hfront : k.dropLast = l <;> simp [hlast, hfront]
  rw [hnames]
  refine List.Nodup.filterMap (fun k k' name hk hk' => ?_) h.unique
  have hkey : ∀ {k : Location},
      name ∈ (k.getLast?.bind fun name => if k.dropLast = l then some name else none) →
        k = l ++ [name] := by
    intro k hk
    obtain ⟨last, hlast, hk⟩ := Option.bind_eq_some_iff.1 hk
    obtain ⟨front, rfl⟩ := List.getLast?_eq_some_iff.1 hlast
    rw [List.dropLast_concat] at hk
    split at hk
    next hfront =>
      cases hk
      rw [hfront]
    · cases hk
  exact (hkey hk).trans (hkey hk').symm

end Children

section Walks

/-- Wherever a walk ends, it was led there by names. -/
theorem isNamed_of_walk {mayBeNew : Bool} {links : Nat} {steps : List Component} {r : Location}
    (h : t.walk mayBeNew links l steps = .ok r) (hl : IsNamed l)
    (hsteps : ∀ cs, .name cs ∈ steps → IsName (String.ofList cs)) : IsNamed r := by
  induction links, l, steps using walk.induct with
  | case1 links l =>
    rw [walk] at h
    cases h
    exact hl
  | case2 links l rest ih =>
    rw [walk] at h
    exact ih h (List.forall_mem_nil _) fun cs hcs => hsteps cs (List.mem_cons_of_mem _ hcs)
  | case3 links l rest ih =>
    rw [walk, bind_eq_ok_iff] at h
    obtain ⟨_, -, h⟩ := h
    exact ih h hl fun cs hcs => hsteps cs (List.mem_cons_of_mem _ hcs)
  | case4 links l rest ih =>
    rw [walk, bind_eq_ok_iff] at h
    obtain ⟨_, -, h⟩ := h
    exact ih h (fun name hname => hl name (List.dropLast_subset _ hname))
      fun cs hcs => hsteps cs (List.mem_cons_of_mem _ hcs)
  | case5 links l cs rest ihfollow ihenter =>
    have hrest : ∀ cs, .name cs ∈ rest → IsName (String.ofList cs) :=
      fun cs hcs => hsteps cs (List.mem_cons_of_mem _ hcs)
    have hentered : IsNamed (l ++ [String.ofList cs]) :=
      List.forall_mem_append.2 ⟨hl, List.forall_mem_singleton.2 (hsteps cs List.mem_cons_self)⟩
    rw [walk, bind_eq_ok_iff] at h
    obtain ⟨_, -, h⟩ := h
    rw [bind_eq_ok_iff] at h
    obtain ⟨_, -, h⟩ := h
    split at h
    next target hfind =>
      cases links with
      | zero => cases h
      | succ links =>
        refine ihfollow target h hl fun cs hcs => ?_
        rcases List.mem_append.1 hcs with hcs | hcs
        · exact isName_of_mem_steps hcs
        · exact hrest cs hcs
    next => exact ihenter h hentered hrest
    next =>
      split at h
      · cases h
        exact hentered
      · cases h

theorem isNamed_of_slot? {p : Path} (h : t.slot? p = .ok (some l)) : IsNamed l := by
  obtain ⟨_, -, h⟩ := bind_eq_ok_iff.1 h
  dsimp only at h
  split at h
  next cs hlast =>
    obtain ⟨directory, hwalk, h⟩ := bind_eq_ok_iff.1 h
    obtain ⟨_, -, h⟩ := bind_eq_ok_iff.1 h
    have hdirectory : IsNamed directory := by
      refine isNamed_of_walk hwalk nofun fun cs hcs => isName_of_mem_components (p := p) ?_
      split at hcs
      · exact hcs
      · exact List.dropLast_subset _ hcs
    split at h
    · cases h
    · obtain ⟨_, -, h⟩ := bind_eq_ok_iff.1 h
      cases h
      exact List.forall_mem_append.2 ⟨hdirectory, List.forall_mem_singleton.2
        (isName_of_mem_components (List.mem_of_getLast? hlast))⟩
  · obtain ⟨_, -, h⟩ := bind_eq_ok_iff.1 h
    obtain ⟨_, -, h⟩ := bind_eq_ok_iff.1 h
    cases h

end Walks

section Keeping

variable {ε ε' α β : Type} {x : Effect FileTree ε α} {Q : α → Prop} {R : β → Prop}

/-- A step puts nothing under what is no name, and something holds of whatever it gives. -/
def KeepsNames (x : Effect FileTree ε α) (Q : α → Prop) : Prop :=
  ∀ t : FileTree, t.Named → (x.outcome t).2.Named ∧ ∀ a, (x.outcome t).1 = .ok a → Q a

namespace KeepsNames

theorem bind {f : α → Effect FileTree ε β} (hx : KeepsNames x Q)
    (hf : ∀ a, Q a → KeepsNames (f a) R) : KeepsNames (x >>= f) R := by
  intro t ht
  obtain ⟨hnamed, hresult⟩ := hx t ht
  rcases hw : x.outcome t with ⟨e | a, v⟩ <;> rw [hw] at hnamed hresult
  · rw [outcome_bind_error hw]
    exact ⟨hnamed, nofun⟩
  · rw [outcome_bind_ok hw]
    exact hf a (hresult a rfl) v hnamed

theorem mapError (h : KeepsNames x Q) (f : ε → ε') : KeepsNames (x.mapError f) Q := by
  intro t ht
  rw [outcome_mapError]
  refine ⟨(h t ht).1, fun a ha => (h t ht).2 a ?_⟩
  rcases hr : (x.outcome t).1 with e | b <;> rw [hr] at ha <;> cases ha
  rfl

theorem attempt (h : KeepsNames x Q) :
    KeepsNames (x.attempt : Effect FileTree ε' (Except ε α)) fun _ => True := by
  intro t ht
  rw [outcome_attempt]
  exact ⟨(h t ht).1, fun _ _ => trivial⟩

theorem throw (e : ε) : KeepsNames (throw e : Effect FileTree ε α) Q :=
  fun _ ht => ⟨ht, nofun⟩

theorem pure {a : α} (h : Q a) : KeepsNames (pure a : Effect FileTree ε α) Q :=
  fun _ ht => ⟨ht, fun _ ha => by cases ha; exact h⟩

theorem get : KeepsNames (get : Effect FileTree ε FileTree) Named :=
  fun _ ht => ⟨ht, fun _ ha => by cases ha; exact ht⟩

theorem set {t : FileTree} (h : t.Named) :
    KeepsNames (set t : Effect FileTree ε PUnit) fun _ => True :=
  fun _ _ => ⟨h, fun _ _ => trivial⟩

theorem query {f : FileTree → Except SystemError α} (h : ∀ t a, f t = .ok a → Q a) :
    KeepsNames (query f) Q := by
  intro t ht
  rw [outcome_query]
  exact ⟨ht, h t⟩

end KeepsNames

theorem Named.put (h : t.Named) (hl : IsNamed l) (node : Node) : (t.put l node).Named := by
  intro x hx
  rcases List.mem_append.1 hx with hx | hx
  · exact h x (List.mem_of_mem_filter hx)
  · rw [List.mem_singleton.1 hx]
    exact hl

theorem Named.move {target : Location} (h : t.Named) (htarget : IsNamed target) :
    (t.move l target).Named := by
  intro x hx
  obtain ⟨⟨k, node⟩, hk, rfl⟩ := List.mem_map.1 hx
  have hnamed : IsNamed k := h _ (List.mem_of_mem_filter hk)
  dsimp only
  split
  · exact List.forall_mem_append.2
      ⟨htarget, fun name hname => hnamed name (List.mem_of_mem_drop hname)⟩
  · exact hnamed

open KeepsNames

theorem keepsNames_slot (otherwise : SystemError) (p : Path) :
    KeepsNames (slot otherwise p) IsNamed := by
  unfold slot
  refine .bind (Q := fun found => ∀ l, found = some l → IsNamed l) (.query ?_)
    fun found hfound => ?_
  · rintro t _ h l rfl
    exact isNamed_of_slot? h
  · split
    · exact .pure (hfound _ rfl)
    · exact .throw _

theorem keepsNames_removeTree (p : Path) : KeepsNames (removeTree p) fun _ => True := by
  unfold removeTree
  refine .bind (keepsNames_slot _ _) fun l hl => .bind .get fun t ht => ?_
  split
  · exact .set (ht.clear l)
  · exact .set (ht.clear l)
  · exact .throw _
  · exact .throw _

theorem keepsNames_removeFile (p : Path) : KeepsNames (removeFile p) fun _ => True := by
  unfold removeFile
  refine .bind (keepsNames_slot _ _) fun l hl => .bind .get fun t ht => ?_
  split
  · exact .throw _
  · split
    · exact .throw _
    · exact .set (ht.clear l)
  · exact .throw _

theorem keepsNames_makeDirectory (p : Path) : KeepsNames (makeDirectory p) fun _ => True := by
  unfold makeDirectory
  refine .bind (keepsNames_slot _ _) fun l hl => .bind .get fun t ht => ?_
  split
  · exact .throw _
  · exact .set (ht.put hl _)

theorem keepsNames_makeDirectoriesFrom (ps : List Path) :
    KeepsNames (makeDirectoriesFrom ps) fun _ => True := by
  induction ps with
  | nil => exact .pure trivial
  | cons p above ih =>
    have hsettle : ∀ cause : SystemError, KeepsNames (do
        if (← MonadState.get).isDirectory p then Pure.pure () else MonadExcept.throw cause :
          Effect FileTree SystemError Unit) fun _ => True := by
      intro cause
      refine .bind .get fun t _ => ?_
      split
      · exact .pure trivial
      · exact .throw _
    unfold makeDirectoriesFrom
    refine .bind (keepsNames_makeDirectory p).attempt fun outcome _ => ?_
    split
    · refine .bind ih fun _ _ => .bind (keepsNames_makeDirectory p).attempt fun outcome _ => ?_
      rcases outcome with cause | ⟨⟩
      · exact hsettle cause
      · exact .pure trivial
    · rcases outcome with cause | ⟨⟩
      · exact hsettle cause
      · exact .pure trivial

theorem keepsNames_rename (source destination : Path) :
    KeepsNames (rename source destination) fun _ => True := by
  unfold rename
  refine .bind (keepsNames_slot _ _) fun l hl => .bind (keepsNames_slot _ _) fun target htarget =>
    .bind .get fun t ht => ?_
  repeat' split
  all_goals first | exact .throw _ | exact .pure trivial | exact .set (ht.move htarget)

theorem keepsNames_writable (p : Path) : KeepsNames (writable p) IsNamed := by
  unfold writable
  split
  · exact .bind (keepsNames_slot _ _) fun _ _ => .throw _
  · refine .bind (Q := IsNamed) (.query fun t l h => ?_) fun l hl => .bind .get fun t _ => ?_
    · obtain ⟨_, -, hwalk⟩ := bind_eq_ok_iff.1 h
      exact isNamed_of_walk hwalk (List.forall_mem_nil _) fun _ hcs => isName_of_mem_steps hcs
    · split
      · exact .throw _
      · exact .pure hl

theorem keepsNames_openFile (p : Path) (mode : Nat) : KeepsNames (openFile p mode) IsNamed := by
  unfold openFile
  refine .bind (keepsNames_writable p) fun l hl => .bind .get fun t ht => ?_
  exact .bind (.set (ht.put hl _)) fun _ _ => .pure hl

theorem keepsNames_append (hl : IsNamed l) (bytes : List UInt8) :
    KeepsNames (append l bytes) fun _ => True := by
  unfold append
  refine .bind .get fun t ht => ?_
  split
  · exact .set (ht.put hl _)
  · exact .throw _

theorem KeepsNames.onPath {step : Effect FileTree SystemError α} (h : KeepsNames step Q)
    (p : Path) : KeepsNames (onPath p step) Q := by
  intro t ht
  rw [outcome_onPath, ← outcome_mapError]
  split
  · exact ⟨ht, nofun⟩
  · exact h.mapError _ t ht

theorem keepsNames_copy (source destination : Path) :
    KeepsNames (copy source destination) fun _ => True := by
  unfold copy
  refine .bind (Q := fun _ => True) (.onPath (.query fun _ _ _ => trivial) _) fun l _ =>
    .bind .get fun t _ => ?_
  split
  · refine .bind (.onPath (keepsNames_openFile _ _) _) fun target htarget =>
      .bind .get fun t _ => ?_
    split
    · exact (keepsNames_append htarget _).mapError _
    · exact .pure trivial
  · exact .throw _
  · exact .throw _

/-- No call puts anything under what is no name. -/
theorem named_perform (h : t.Named) (c : FileCall) : (c.perform.outcome t).2.Named := by
  cases c with
  | list p => rwa [list_snd]
  | accessTime p => rwa [accessTime_snd]
  | removeTree p => exact ((keepsNames_removeTree p).onPath p t h).1
  | makeDirectories p => exact ((keepsNames_makeDirectoriesFrom _).onPath p t h).1
  | rename source destination =>
    have hkeeps : KeepsNames (do
        requirePlain source
        onPath destination (rename source destination)) fun _ => True := by
      refine .bind (Q := fun _ => True) ?_ fun _ _ => (keepsNames_rename _ _).onPath _
      unfold requirePlain
      split
      · exact .throw _
      · exact .pure trivial
    exact (hkeeps t h).1
  | copy source destination => exact (keepsNames_copy source destination t h).1
  | removeFile p => exact ((keepsNames_removeFile p).onPath p t h).1

end Keeping

end RemoteAgent.FileTree
