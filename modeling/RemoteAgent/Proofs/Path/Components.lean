import RemoteAgent.Path

/-! # Paths with the same components

How a path is written does not matter beyond its components: a slash may be doubled or stand at the
end, and a `.` may stand at the front of a relative path if that is disregarded.
-/

namespace RemoteAgent.Path

theorem piecesFrom_append_slash (piece a b : List Char) :
    piecesFrom piece (a ++ '/' :: b) = piecesFrom piece a ++ pieces b := by
  induction a generalizing piece with
  | nil => cases piece <;> simp [piecesFrom, pieces]
  | cons c a ih =>
    rw [List.cons_append, piecesFrom, piecesFrom]
    split
    · split
      · exact ih []
      · rw [ih [], List.cons_append]
    · exact ih (c :: piece)

theorem pieces_append_slash (a b : List Char) : pieces (a ++ '/' :: b) = pieces a ++ pieces b :=
  piecesFrom_append_slash [] a b

/-- The components without a `.` at the front. -/
def withoutHere : List Component → List Component
  | .here :: cs => cs
  | cs => cs

theorem withoutHere_eq (cs : List Component) :
    withoutHere cs = if cs.head? = some .here then cs.tail else cs := by
  rcases cs with _ | ⟨_ | _ | _ | _, cs⟩ <;> rfl

theorem here_notMem_ofPieces (ps : List (List Char)) : Component.here ∉ ofPieces ps := by
  simp only [ofPieces, List.mem_filterMap, not_exists, not_and]
  intro p _ h
  split at h
  · cases h
  · split at h <;> cases h

theorem withoutHere_ofPieces (ps : List (List Char)) : withoutHere (ofPieces ps) = ofPieces ps := by
  rw [withoutHere_eq, if_neg]
  exact fun h => here_notMem_ofPieces ps (List.mem_of_mem_head? h)

/-- What tells components is whether the path is absolute, and its pieces. -/
theorem components_eq (p : Path) :
    p.components =
      if p.isAbsolute then .root :: ofPieces (pieces p.text.toList)
      else
        match pieces p.text.toList with
        | ['.'] :: ps => .here :: ofPieces ps
        | ps => ofPieces ps := by
  unfold components isAbsolute
  split
  next r h =>
    rw [h]
    rfl
  next h =>
    have hrelative : ¬ decide (p.text.toList.head? = some '/') = true := by
      simpa [List.head?_eq_some_iff] using h
    exact (if_neg hrelative).symm

theorem withoutHere_components {p : Path} (h : p.isAbsolute = false) :
    withoutHere p.components = ofPieces (pieces p.text.toList) := by
  rw [components_eq, if_neg (by simp [h])]
  split
  next hp =>
    rw [hp]
    rfl
  · exact withoutHere_ofPieces _

theorem components_congr {p q : Path} (habs : p.isAbsolute = q.isAbsolute)
    (h : pieces p.text.toList = pieces q.text.toList) : p.components = q.components := by
  rw [components_eq, components_eq, habs, h]

section Spellings

variable (a b : String)

theorem components_doubled_slash :
    (Path.mk (a ++ "//" ++ b)).components = (Path.mk (a ++ "/" ++ b)).components := by
  have hpieces : pieces (a.toList ++ '/' :: '/' :: b.toList) =
      pieces (a.toList ++ '/' :: b.toList) := by
    rw [pieces_append_slash, pieces_append_slash]
    rfl
  apply components_congr
  · cases h : a.toList <;> simp [isAbsolute, h]
  · simpa using hpieces

variable {a}

theorem components_trailing_slash (h : a ≠ "") :
    (Path.mk (a ++ "/")).components = (Path.mk a).components := by
  apply components_congr
  · rcases ha : a.toList with _ | ⟨c, cs⟩
    · exact absurd (String.toList_eq_nil_iff.1 ha) h
    · simp [isAbsolute, ha]
  · have := pieces_append_slash a.toList []
    simpa [pieces, piecesFrom] using this

theorem withoutHere_components_here (h : (Path.mk a).isAbsolute = false) :
    withoutHere (Path.mk ("./" ++ a)).components = withoutHere (Path.mk a).components := by
  have hrelative : (Path.mk ("./" ++ a)).isAbsolute = false := by simp [isAbsolute]
  have hpieces : pieces ('.' :: '/' :: a.toList) = ['.'] :: pieces a.toList :=
    pieces_append_slash ['.'] a.toList
  rw [withoutHere_components h, withoutHere_components hrelative]
  simp [hpieces, ofPieces]

end Spellings

end RemoteAgent.Path
