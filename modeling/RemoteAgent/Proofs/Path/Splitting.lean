import Mathlib.Data.List.Basic
import Mathlib.Data.List.TakeWhile
import RemoteAgent.Proofs.Path.Names

/-! # Parents and names

What is written of a path before its last component has all components but this one. So a path that
ends in a name is its parent joined with the name, however many slashes and `.`s stand between or
after its components.
-/

namespace RemoteAgent.Path

section Texts

/-- What a text of a path names. -/
def named (cs : List Char) : List Component :=
  (Path.mk (String.ofList cs)).components

@[simp] theorem named_toList (p : Path) : named p.text.toList = p.components := by
  rw [named, String.ofList_toList]

@[simp] theorem named_nil : named [] = [] := rfl

theorem named_eq (cs : List Char) :
    named cs =
      (if cs.head? = some '/' then [.root]
        else if (pieces cs).head? = some ['.'] then [.here] else []) ++ ofPieces (pieces cs) := by
  rw [named, components_eq_append, String.toList_ofList]
  simp only [isAbsolute, String.toList_ofList, decide_eq_true_eq]

theorem piecesFrom_ne_nil {piece : List Char} (h : piece ≠ []) (cs : List Char) :
    piecesFrom piece cs ≠ [] := by
  induction cs generalizing piece with
  | nil => simp [piecesFrom, h]
  | cons c cs ih =>
    unfold piecesFrom
    split
    · simp [h]
    · exact ih (List.cons_ne_nil c piece)

variable {a q : List Char}

theorem pieces_ne_nil (ha : a ≠ []) (hrelative : a.head? ≠ some '/') : pieces a ≠ [] := by
  obtain ⟨c, cs, rfl⟩ := List.exists_cons_of_ne_nil ha
  have hc : c ≠ '/' := by simpa using hrelative
  simpa [pieces, piecesFrom, hc] using piecesFrom_ne_nil (List.cons_ne_nil c []) cs

/-- A front that ends in a slash has its pieces apart from what follows. -/
theorem pieces_front_append (ha : a = [] ∨ a.getLast? = some '/') (b : List Char) :
    pieces (a ++ b) = pieces a ++ pieces b := by
  rcases ha with rfl | ha
  · rfl
  · obtain ⟨front, rfl⟩ := List.getLast?_eq_some_iff.1 ha
    have hfront : pieces (front ++ ['/']) = pieces front := by
      simpa [pieces, piecesFrom] using pieces_append_slash front []
    rw [hfront, List.append_assoc, List.singleton_append, pieces_append_slash]

theorem named_append_slash (ha : a ≠ []) : named (a ++ ['/']) = named a := by
  have hpieces : pieces (a ++ ['/']) = pieces a := by
    simpa [pieces, piecesFrom] using pieces_append_slash a []
  rw [named_eq, named_eq, hpieces, List.head?_append_of_ne_nil _ ha]

theorem named_append_here (a : List Char) : named (a ++ ['/', '.']) = named (a ++ ['/']) := by
  by_cases ha : a = []
  · rw [ha]
    rfl
  · have hpieces : pieces (a ++ ['/', '.']) = pieces a ++ [['.']] := pieces_append_slash a ['.']
    have hdropped : ofPieces (pieces a ++ [['.']]) = ofPieces (pieces a) := by simp [ofPieces]
    rw [named_append_slash ha, named_eq, named_eq, hpieces, hdropped,
      List.head?_append_of_ne_nil _ ha]
    split
    · rfl
    next hrelative => rw [List.head?_append_of_ne_nil _ (pieces_ne_nil ha hrelative)]

/-- The component that a piece stands for where a `.` counts. -/
def Component.ofPiece (q : List Char) : Component :=
  if q = ['.'] then .here else if q = ['.', '.'] then .up else .name q

theorem ofPieces_append_singleton (ps : List (List Char)) (hq : q ≠ ['.']) :
    ofPieces (ps ++ [q]) = ofPieces ps ++ [.ofPiece q] := by
  simp only [ofPieces, List.filterMap_append, Component.ofPiece, if_neg hq]
  split <;> simp [*]

/-- A piece at the end is one more component, unless it is a `.` behind something. -/
theorem named_append_piece (ha : a = [] ∨ a.getLast? = some '/') (hq : q ≠ []) (hslash : '/' ∉ q)
    (hhere : q = ['.'] → a = []) : named (a ++ q) = named a ++ [.ofPiece q] := by
  by_cases hdot : q = ['.']
  · rw [hhere hdot, hdot]
    rfl
  · have hpieces : pieces (a ++ q) = pieces a ++ [q] := by
      rw [pieces_front_append ha, pieces, pieces, piecesFrom_of_noSlash hslash]
      simp [hq]
    have hhead : (pieces a ++ [q]).head? = some ['.'] ↔ (pieces a).head? = some ['.'] := by
      cases pieces a <;> simp [hdot]
    have hroot : (a ++ q).head? = some '/' ↔ a.head? = some '/' := by
      cases a with
      | nil => simpa using fun h => hslash (List.mem_of_mem_head? h)
      | cons c cs => rfl
    rw [named_eq, named_eq, hpieces, ofPieces_append_singleton _ hdot, List.append_assoc]
    simp only [hhead, hroot]

end Texts

section Trimming

/-- What is taken off the end of a text does not matter. -/
theorem named_trimEnd (r : List Char) : named (trimEnd r).reverse = named r.reverse := by
  fun_induction trimEnd r with
  | case1 c r ih =>
    rw [ih, List.reverse_cons (a := '/'), named_append_slash (by simp)]
  | case2 r ih =>
    have htext : ('.' :: '/' :: r).reverse = r.reverse ++ ['/', '.'] := by simp
    rw [ih, htext, named_append_here, List.reverse_cons]
  | case3 r => rfl

/-- A text, last character first, that ends in a piece which counts as a component. -/
structure EndsIn (r q front : List Char) : Prop where
  split : r = q ++ front
  ne_nil : q ≠ []
  noSlash : '/' ∉ q
  bounded : front = [] ∨ front.head? = some '/'
  here : q = ['.'] → front = []

/-- What is left once nothing more can be taken off the end. -/
theorem trimEnd_cases (r : List Char) :
    trimEnd r = [] ∨ trimEnd r = ['/'] ∨
      ∃ q, EndsIn (trimEnd r) q ((trimEnd r).dropWhile (· ≠ '/')) := by
  fun_induction trimEnd r with
  | case1 c r ih => exact ih
  | case2 r ih => exact ih
  | case3 r hslash hhere =>
    rcases r with _ | ⟨c, r⟩
    · exact .inl rfl
    · by_cases hc : c = '/'
      · subst hc
        cases r with
        | nil => exact .inr (.inl rfl)
        | cons c' r => exact absurd rfl (hslash c' r)
      · have hsplit := (List.takeWhile_append_dropWhile (p := (· ≠ '/')) (l := c :: r)).symm
        have hbounded : (c :: r).dropWhile (· ≠ '/') = [] ∨
            ((c :: r).dropWhile (· ≠ '/')).head? = some '/' := by
          have hhead := List.head?_dropWhile_not (· ≠ '/') (c :: r)
          revert hhead
          cases (c :: r).dropWhile (· ≠ '/') with
          | nil => exact fun _ => .inl rfl
          | cons c' r' => exact fun hhead => .inr (by simpa using hhead)
        refine .inr (.inr ⟨(c :: r).takeWhile (· ≠ '/'), hsplit, by simp [hc], ?_, hbounded, ?_⟩)
        · intro hmem
          simpa using List.mem_takeWhile_imp hmem
        · -- A `.` behind a slash would have been taken off.
          intro hdot
          refine hbounded.resolve_right fun hhead => ?_
          obtain ⟨r', hr'⟩ := List.head?_eq_some_iff.1 hhead
          rw [hdot, hr'] at hsplit
          exact hhere r' hsplit

variable {r q front : List Char}

theorem EndsIn.named_eq (h : EndsIn r q front) :
    named r.reverse = named front.reverse ++ [.ofPiece q.reverse] := by
  rw [h.split, List.reverse_append]
  refine named_append_piece ?_ (by simpa using h.ne_nil) (by simpa using h.noSlash) fun hdot => ?_
  · simpa using h.bounded
  · have hq : q = ['.'] := by simpa using congrArg List.reverse hdot
    rw [h.here hq, List.reverse_nil]

end Trimming

section Parents

variable {p d : Path} {name : String}

theorem named_trimEnd_text (p : Path) :
    named (trimEnd p.text.toList.reverse).reverse = p.components := by
  rw [named_trimEnd, List.reverse_reverse, named_toList]

/-- The parent has all components but the last. -/
theorem components_parent? (h : p.parent? = some d) : d.components = p.components.dropLast := by
  have htext := named_trimEnd_text p
  unfold parent? at h
  rcases trimEnd_cases p.text.toList.reverse with hnil | hroot | ⟨q, hends⟩
  · rw [← htext, hnil] at h
    cases h
  · rw [← htext, hroot] at h
    cases h
  · rw [hends.named_eq] at htext
    split at h
    · cases h
    · cases h
    · obtain rfl := Option.some_inj.1 h
      rw [← htext, List.dropLast_concat]
      exact named_trimEnd _

theorem parent?_isSome (hlast : p.components.getLast? = some (.name name.toList)) :
    ∃ d, p.parent? = some d := by
  rw [parent?, hlast]
  exact ⟨_, rfl⟩

theorem components_name (h : IsName name) : (Path.mk name).components = [.name name.toList] := by
  have hne : name.toList ≠ [] := fun hnil => h.ne_empty (String.toList_eq_nil_iff.1 hnil)
  have hhere : name.toList ≠ ['.'] := fun heq => h.ne_here (String.toList_inj.1 heq)
  have hup : name.toList ≠ ['.', '.'] := fun heq => h.ne_up (String.toList_inj.1 heq)
  have hnamed := named_append_piece (.inl rfl) hne h.noSlash fun heq => absurd heq hhere
  rw [List.nil_append, named_nil, Component.ofPiece, if_neg hhere, if_neg hup] at hnamed
  rw [← named_toList]
  exact hnamed

/-- A path that ends in a name is its parent joined with the name. -/
theorem components_parent_join (hd : p.parent? = some d)
    (hlast : p.components.getLast? = some (.name name.toList)) :
    (d.join name).components = p.components := by
  have hname : IsName name := by
    simpa using isName_of_mem_components (List.mem_of_getLast? hlast)
  have hall : p.components.dropLast ++ [.name name.toList] = p.components := by
    obtain ⟨front, hfront⟩ := List.getLast?_eq_some_iff.1 hlast
    rw [hfront, List.dropLast_concat]
  rw [← hall, ← components_parent? hd]
  by_cases hnil : d.text = ""
  · have hjoin : d.join name = ⟨name⟩ := by simp [join, hnil]
    have hempty : d.components = [] := by rw [← named_toList, hnil]; rfl
    rw [hjoin, hempty, components_name hname, List.nil_append]
  · exact components_join hnil hname

/-- A slash at the end, or a `.` behind one, changes neither the parent nor the name. -/
theorem parts_trailing {a more : String} (ha : a ≠ "") (hmore : more = "/" ∨ more = "/.") :
    (Path.mk (a ++ more)).isAbsolute = (Path.mk a).isAbsolute ∧
      (Path.mk (a ++ more)).parent? = (Path.mk a).parent? ∧
      (Path.mk (a ++ more)).fileName? = (Path.mk a).fileName? := by
  have hne : a.toList ≠ [] := fun hnil => ha (String.toList_eq_nil_iff.1 hnil)
  obtain ⟨c, r, hr⟩ := List.exists_cons_of_ne_nil (List.reverse_ne_nil_iff.2 hne)
  have htrim : trimEnd (a ++ more).toList.reverse = trimEnd a.toList.reverse := by
    rcases hmore with rfl | rfl <;> simp [hr, trimEnd]
  have hcomponents : (Path.mk (a ++ more)).components = (Path.mk a).components := by
    rw [← named_trimEnd_text, ← named_trimEnd_text, htrim]
  refine ⟨?_, by simp only [parent?, hcomponents, htrim], by simp only [fileName?, hcomponents]⟩
  simp [isAbsolute, List.head?_append_of_ne_nil _ hne]

end Parents

end RemoteAgent.Path
