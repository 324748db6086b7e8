import RemoteAgent.FileTree.Walk
import RemoteAgent.Proofs.Path.Components

/-! # Names in paths

A name is a component by itself. Joined to a path it is the last component of the longer path, and
every named component of a path is a name.
-/

namespace RemoteAgent.Path

/-- A text that names an entry of a directory. -/
structure IsName (name : String) : Prop where
  ne_empty : name ≠ ""
  noSlash : '/' ∉ name.toList
  ne_here : name ≠ "."
  ne_up : name ≠ ".."

instance (name : String) : Decidable (IsName name) :=
  decidable_of_iff (name ≠ "" ∧ '/' ∉ name.toList ∧ name ≠ "." ∧ name ≠ "..")
    ⟨fun ⟨h₁, h₂, h₃, h₄⟩ => ⟨h₁, h₂, h₃, h₄⟩, fun ⟨h₁, h₂, h₃, h₄⟩ => ⟨h₁, h₂, h₃, h₄⟩⟩

section Pieces

theorem piecesFrom_of_noSlash {piece cs : List Char} (h : '/' ∉ cs) :
    piecesFrom piece cs = if piece = [] ∧ cs = [] then [] else [piece.reverse ++ cs] := by
  induction cs generalizing piece with
  | nil => cases piece <;> simp [piecesFrom]
  | cons c cs ih =>
    obtain ⟨hc, hcs⟩ := List.ne_and_not_mem_of_not_mem_cons h
    rw [piecesFrom, if_neg hc.symm, ih hcs]
    simp

theorem pieces_name {name : String} (h : IsName name) :
    pieces name.toList = [name.toList] := by
  have hne : name.toList ≠ [] := fun hnil => h.ne_empty (String.toList_eq_nil_iff.1 hnil)
  rw [pieces, piecesFrom_of_noSlash h.noSlash]
  simp [hne]

theorem of_mem_piecesFrom {piece cs q : List Char} (hpiece : '/' ∉ piece)
    (h : q ∈ piecesFrom piece cs) : q ≠ [] ∧ '/' ∉ q := by
  induction cs generalizing piece with
  | nil =>
    unfold piecesFrom at h
    split at h
    · cases h
    next hne =>
      obtain rfl := List.mem_singleton.1 h
      simpa [hpiece] using hne
  | cons c cs ih =>
    unfold piecesFrom at h
    split at h
    · split at h
      · exact ih List.not_mem_nil h
      next hne =>
        rcases List.mem_cons.1 h with rfl | h
        · simpa [hpiece] using hne
        · exact ih List.not_mem_nil h
    next hc =>
      refine ih ?_ h
      rw [List.mem_cons, not_or]
      exact ⟨Ne.symm hc, hpiece⟩

theorem isName_of_mem_ofPieces {ps : List (List Char)} (hps : ∀ q ∈ ps, q ≠ [] ∧ '/' ∉ q)
    {cs : List Char} (h : .name cs ∈ ofPieces ps) : IsName (String.ofList cs) := by
  obtain ⟨q, hq, hname⟩ := List.mem_filterMap.1 h
  split at hname
  · cases hname
  next hhere =>
    split at hname
    · cases hname
    next hup =>
      cases hname
      obtain ⟨hne, hslash⟩ := hps _ hq
      refine ⟨fun h => hne ?_, by simpa using hslash, fun h => hhere ?_, fun h => hup ?_⟩
      all_goals simpa using congrArg String.toList h

/-- Every named component of a path is a name. -/
theorem isName_of_mem_components {p : Path} {cs : List Char} (h : .name cs ∈ p.components) :
    IsName (String.ofList cs) := by
  have hall : ∀ q ∈ pieces p.text.toList, q ≠ [] ∧ '/' ∉ q :=
    fun q hq => of_mem_piecesFrom List.not_mem_nil hq
  rw [components_eq] at h
  split at h
  · exact isName_of_mem_ofPieces hall (by simpa using h)
  · split at h
    next ps hp =>
      refine isName_of_mem_ofPieces (fun q hq => hall q ?_) (by simpa using h)
      rw [hp]
      exact List.mem_cons_of_mem _ hq
    · exact isName_of_mem_ofPieces hall h

theorem isName_of_mem_steps {p : Path} {cs : List Char} (h : .name cs ∈ p.steps) :
    IsName (String.ofList cs) := by
  rcases List.mem_append.1 h with h | h
  · exact isName_of_mem_components h
  · split at h
    · simp at h
    · cases h

end Pieces

section Joining

variable {p : Path} {name : String}

theorem IsName.relative (h : IsName name) : name.toList.head? ≠ some '/' :=
  fun hslash => h.noSlash (List.mem_of_mem_head? hslash)

/-- Where nothing is absolute, different texts lead to different paths. -/
theorem join_inj {a b : String} (ha : a.toList.head? ≠ some '/')
    (hb : b.toList.head? ≠ some '/') : p.join a = p.join b ↔ a = b := by
  constructor
  · intro h
    unfold join at h
    by_cases hp : p.text.isEmpty
    · simpa [hp] using h
    · simp only [ha, hb, hp, Bool.or_self, decide_false, Bool.false_eq_true, if_false] at h
      split at h
      · simpa using h
      · simpa using h
  · rintro rfl
    rfl

theorem join_eq (hp : p.text ≠ "") (h : IsName name) :
    p.join name = ⟨p.text ++ name⟩ ∧ p.endsInSlash ∨ p.join name = ⟨p.text ++ "/" ++ name⟩ := by
  unfold join
  rw [if_neg (by simp [h.relative, hp])]
  split
  next hslash => exact .inl ⟨rfl, by simpa [endsInSlash] using hslash⟩
  · exact .inr rfl

/-- Joining a name makes a text longer. -/
theorem text_join (hp : p.text ≠ "") (h : IsName name) :
    ∃ more, more ≠ "" ∧ (p.join name).text = p.text ++ more := by
  rcases join_eq hp h with ⟨hj, -⟩ | hj <;> rw [hj]
  · exact ⟨name, h.ne_empty, rfl⟩
  · refine ⟨"/" ++ name, ?_, String.append_assoc⟩
    simp

theorem pieces_join (hp : p.text ≠ "") (h : IsName name) :
    pieces (p.join name).text.toList = pieces p.text.toList ++ [name.toList] := by
  rcases join_eq hp h with ⟨hj, hslash⟩ | hj
  · obtain ⟨cs, hcs⟩ : ∃ cs, p.text.toList = cs ++ ['/'] := by
      obtain ⟨cs, hcs⟩ := List.getLast?_eq_some_iff.1 (by simpa [endsInSlash] using hslash)
      exact ⟨cs, hcs⟩
    have hfront := pieces_append_slash cs []
    have hall := pieces_append_slash cs name.toList
    rw [hj, String.toList_append, hcs, hfront, List.append_assoc]
    simp only [List.singleton_append, hall, pieces_name h]
    simp [pieces, piecesFrom]
  · have hall := pieces_append_slash p.text.toList name.toList
    rw [hj]
    simpa [pieces_name h] using hall

theorem isAbsolute_join (hp : p.text ≠ "") (h : IsName name) :
    (p.join name).isAbsolute = p.isAbsolute := by
  have hne : p.text.toList ≠ [] := fun hnil => hp (String.toList_eq_nil_iff.1 hnil)
  obtain ⟨c, cs, hcs⟩ := List.exists_cons_of_ne_nil hne
  rcases join_eq hp h with ⟨hj, -⟩ | hj <;> rw [hj] <;> simp [isAbsolute, hcs]

/-- What stands at the front of a path is told by its pieces, and so are the other components. -/
theorem components_eq_append (p : Path) :
    p.components =
      (if p.isAbsolute then [.root]
        else if (pieces p.text.toList).head? = some ['.'] then [.here] else []) ++
      ofPieces (pieces p.text.toList) := by
  rw [components_eq]
  split
  · rfl
  · split
    next ps hp =>
      rw [hp]
      rfl
    next hne =>
      rw [if_neg, List.nil_append]
      intro hhead
      obtain ⟨ps, hps⟩ := List.head?_eq_some_iff.1 hhead
      exact hne ps hps

theorem components_join (hp : p.text ≠ "") (h : IsName name) :
    (p.join name).components = p.components ++ [.name name.toList] := by
  have hhere : name.toList ≠ ['.'] := fun heq => h.ne_here (String.toList_inj.1 heq)
  have hup : name.toList ≠ ['.', '.'] := fun heq => h.ne_up (String.toList_inj.1 heq)
  have hlast : ofPieces [name.toList] = [.name name.toList] := by simp [ofPieces, hhere, hup]
  have hhead : (pieces p.text.toList ++ [name.toList]).head? = some ['.'] ↔
      (pieces p.text.toList).head? = some ['.'] := by
    cases pieces p.text.toList <;> simp [hhere]
  have happend : ofPieces (pieces p.text.toList ++ [name.toList]) =
      ofPieces (pieces p.text.toList) ++ [.name name.toList] := by
    rw [ofPieces, List.filterMap_append]
    exact congrArg (_ ++ ·) hlast
  rw [components_eq_append, components_eq_append, isAbsolute_join hp h, pieces_join hp h, happend,
    List.append_assoc]
  simp only [hhead]

theorem endsInDot_join (hp : p.text ≠ "") (h : IsName name) :
    (p.join name).endsInDot = false := by
  have hhere : name.toList ≠ ['.'] := fun heq => h.ne_here (String.toList_inj.1 heq)
  simp [endsInDot, pieces_join hp h, hhere]

theorem steps_join (hp : p.text ≠ "") (h : IsName name) :
    (p.join name).steps = p.components ++ [.name name.toList] := by
  have hslash : (p.join name).endsInSlash = false := by
    have hlast : ∀ a, (a ++ name).toList.getLast? ≠ some '/' := by
      intro a hlast
      rw [String.toList_append, List.getLast?_append, Option.or_eq_some_iff,
        List.getLast?_eq_none_iff, String.toList_eq_nil_iff] at hlast
      rcases hlast with hlast | ⟨hnil, -⟩
      · exact h.noSlash (List.mem_of_getLast? hlast)
      · exact h.ne_empty hnil
    rcases join_eq hp h with ⟨hj, -⟩ | hj <;> rw [hj, endsInSlash] <;>
      exact decide_eq_false (hlast _)
  rw [steps, endsInDot_join hp h, hslash, components_join hp h]
  simp

end Joining

end RemoteAgent.Path
