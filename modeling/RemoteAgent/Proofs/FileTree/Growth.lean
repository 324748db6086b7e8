import Mathlib.Logic.Relation
import RemoteAgent.Proofs.FileTree.Calls

/-! # Directories that are made

Making directories takes nothing away. So every path still leads to what it led to, and it names
what it named.
-/

namespace RemoteAgent.FileTree

open Effect Relation

variable {t u v : FileTree} {p : Path} {ps : List Path} {l k r : Location} {node : Node}

/-- Everything stays, and whatever is new is a directory. -/
def Grown (t u : FileTree) : Prop :=
  ∀ k, u.find? k = t.find? k ∨ t.find? k = none ∧ u.IsDirectoryAt k

namespace Grown

theorem refl (t : FileTree) : t.Grown t :=
  fun _ => .inl rfl

theorem find? (h : t.Grown u) (hk : t.find? k = some node) : u.find? k = some node := by
  rcases h k with hsame | ⟨hnone, -⟩
  · rwa [hsame]
  · cases hk.symm.trans hnone

theorem of_find? (h : t.Grown u) (hk : u.find? k = some node) (hnode : node.isDirectory = false) :
    t.find? k = some node := by
  rcases h k with hsame | ⟨-, _, hd⟩
  · rwa [← hsame]
  · cases hk.symm.trans hd
    cases hnode

theorem trans (h : t.Grown u) (h' : u.Grown v) : t.Grown v := by
  intro k
  rcases h k with hsame | ⟨hnone, _, hd⟩
  · rw [← hsame]
    exact h' k
  · exact .inr ⟨hnone, _, h'.find? hd⟩

theorem isDirectoryAt (h : t.Grown u) (hd : t.IsDirectoryAt l) : u.IsDirectoryAt l := by
  obtain ⟨_, hd⟩ := hd
  exact ⟨_, h.find? hd⟩

theorem way (h : t.Grown u) {links : Nat} {steps : List Path.Component} {passed : List Location}
    (hway : t.Way links l steps passed r) : u.Way links l steps passed r :=
  (hway.transfer (P := fun _ => True) (fun _ _ => trivial) (fun _ => h.find?) trivial
    fun _ _ => trivial).1

theorem locate (h : t.Grown u) (hp : t.locate p = .ok l) : u.locate p = .ok l := by
  obtain ⟨hshort, passed, hway⟩ := locate_ok_iff.1 hp
  exact locate_ok_iff.2 ⟨hshort, passed, h.way hway⟩

theorem slot? (h : t.Grown u) (hp : t.slot? p = .ok (some l)) : u.slot? p = .ok (some l) := by
  obtain ⟨hshort, hdot, front, cs, passed, d, hcomponents, hway, hd, hn, hl⟩ :=
    slot?_eq_some_iff.1 hp
  exact slot?_eq_some_iff.2 ⟨hshort, hdot, front, cs, passed, d, hcomponents, h.way hway,
    h.isDirectoryAt hd, hn, hl⟩

theorem put (hl : t.find? l = none) (accessed : Timestamp) :
    t.Grown (t.put l (.directory accessed)) := by
  have hroot : l ≠ [] := by
    rintro rfl
    cases hl
  intro k
  unfold IsDirectoryAt
  rw [find?_put _ _ _ _ hroot]
  split
  next hk => exact .inr ⟨hk ▸ hl, accessed, rfl⟩
  · exact .inl rfl

end Grown

theorem allOrNothing_makeDirectory (p : Path) (t : FileTree) :
    AllOrNothing (makeDirectory p) t fun _ u =>
      ∃ l, t.find? l = none ∧ u = t.put l (.directory t.now) := by
  unfold makeDirectory
  refine (allOrNothing_slot _ p t).bind fun l hslot => .bind .get ?_
  rintro _ rfl
  split
  · exact .throw _
  next hfree => exact .set ⟨l, by simpa using hfree, rfl⟩

/-- One of some directories has been made. -/
def Makes (ps : List Path) (t u : FileTree) : Prop :=
  ∃ p ∈ ps, (makeDirectory p).outcome t = (.ok (), u)

theorem Makes.grown (h : Makes ps t u) : t.Grown u := by
  obtain ⟨p, -, hmake⟩ := h
  obtain ⟨l, hfree, rfl⟩ := (allOrNothing_makeDirectory p t).of_ok hmake
  exact .put hfree _

theorem grown_of_makes (h : ReflTransGen (Makes ps) t u) : t.Grown u := by
  induction h with
  | refl => exact .refl t
  | tail _ hmakes ih => exact ih.trans hmakes.grown

theorem Makes.of_cons (h : Makes ps t u) : Makes (p :: ps) t u := by
  obtain ⟨q, hq, hmake⟩ := h
  exact ⟨q, List.mem_cons_of_mem _ hq, hmake⟩

section Changes

variable {ε ε' α β : Type} {R : FileTree → FileTree → Prop} {x : Effect FileTree ε α}

/-- However a step ends, the tree has gone through changes of one kind. -/
def Undergoes (R : FileTree → FileTree → Prop) (x : Effect FileTree ε α) : Prop :=
  ∀ t, ReflTransGen R t (x.outcome t).2

namespace Undergoes

theorem of_same (h : ∀ t, (x.outcome t).2 = t) : Undergoes R x := by
  intro t
  rw [h]

theorem mono {S : FileTree → FileTree → Prop} (h : Undergoes R x) (hRS : ∀ t u, R t u → S t u) :
    Undergoes S x :=
  fun t => ReflTransGen.mono hRS _ _ (h t)

theorem bind {f : α → Effect FileTree ε β} (hx : Undergoes R x) (hf : ∀ a, Undergoes R (f a)) :
    Undergoes R (x >>= f) := by
  intro t
  have hx := hx t
  rcases hw : x.outcome t with ⟨cause | a, v⟩ <;> rw [hw] at hx
  · rw [outcome_bind_error hw]
    exact hx
  · rw [outcome_bind_ok hw]
    exact hx.trans (hf a v)

theorem attempt (h : Undergoes R x) :
    Undergoes R (x.attempt : Effect FileTree ε' (Except ε α)) := by
  intro t
  rw [outcome_attempt]
  exact h t

end Undergoes

theorem undergoes_makeDirectory (hp : p ∈ ps) : Undergoes (Makes ps) (makeDirectory p) := by
  intro t
  rcases allOrNothing_makeDirectory p t with ⟨cause, hfailed⟩ | ⟨_, u, hmade, -⟩
  · rw [hfailed]
  · rw [hmade]
    exact .single ⟨p, hp, hmade⟩

/-- However making directories ends, some of them have been made. -/
theorem undergoes_makeDirectoriesFrom (ps : List Path) :
    Undergoes (Makes ps) (makeDirectoriesFrom ps) := by
  induction ps with
  | nil => exact .of_same fun _ => rfl
  | cons p above ih =>
    have hsettle : ∀ cause : SystemError, Undergoes (Makes (p :: above)) (do
        if (← MonadState.get).isDirectory p then Pure.pure () else MonadExcept.throw cause :
          Effect FileTree SystemError Unit) := by
      refine fun cause => .of_same fun t => ?_
      rw [outcome_bind_ok (outcome_get t)]
      split <;> rfl
    have hmake : Undergoes (Makes (p :: above))
        ((makeDirectory p).attempt : Effect FileTree SystemError (Except SystemError Unit)) :=
      (undergoes_makeDirectory List.mem_cons_self).attempt
    unfold makeDirectoriesFrom
    refine hmake.bind fun outcome => ?_
    split
    · refine (ih.mono fun _ _ => Makes.of_cons).bind fun _ => hmake.bind fun outcome => ?_
      rcases outcome with cause | ⟨⟩
      · exact hsettle cause
      · exact .of_same fun _ => rfl
    · rcases outcome with cause | ⟨⟩
      · exact hsettle cause
      · exact .of_same fun _ => rfl

end Changes

end RemoteAgent.FileTree
