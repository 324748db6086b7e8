/-!
# Finite maps from texts

The entries stand in the order of their names, so two maps with the same entries are equal.
-/

namespace RemoteAgent

structure SortedMap (α : Type) where
  entries : List (String × α)
  sorted : entries.Pairwise (·.1 < ·.1)
  deriving DecidableEq, Repr

namespace SortedMap

variable {α β : Type}

def empty : SortedMap α :=
  ⟨[], .nil⟩

/-- Puts an entry in its place, instead of one of the same name. -/
def insertEntry (name : String) (value : α) : List (String × α) → List (String × α)
  | [] => [(name, value)]
  | e :: r =>
    if name < e.1 then (name, value) :: e :: r
    else if name = e.1 then (name, value) :: r
    else e :: insertEntry name value r

theorem mem_insertEntry {name : String} {value : α} {es : List (String × α)} {e : String × α}
    (h : e ∈ insertEntry name value es) : e.1 = name ∨ e ∈ es := by
  induction es with
  | nil => simp only [insertEntry, List.mem_singleton] at h; exact .inl (h ▸ rfl)
  | cons d r ih =>
    unfold insertEntry at h
    split at h
    · rcases List.mem_cons.1 h with rfl | h
      · exact .inl rfl
      · exact .inr h
    · split at h
      · rcases List.mem_cons.1 h with rfl | h
        · exact .inl rfl
        · exact .inr (List.mem_cons_of_mem _ h)
      · rcases List.mem_cons.1 h with rfl | h
        · exact .inr List.mem_cons_self
        · exact (ih h).imp id (List.mem_cons_of_mem _)

theorem sorted_insertEntry {name : String} {value : α} {es : List (String × α)}
    (h : es.Pairwise (·.1 < ·.1)) : (insertEntry name value es).Pairwise (·.1 < ·.1) := by
  induction es with
  | nil => exact .cons (by simp) .nil
  | cons d r ih =>
    obtain ⟨hd, hr⟩ := List.pairwise_cons.1 h
    unfold insertEntry
    split
    next hlt =>
      refine .cons (fun e he => ?_) h
      rcases List.mem_cons.1 he with rfl | he
      · exact hlt
      · exact String.lt_trans hlt (hd e he)
    next hge =>
      split
      next heq =>
        subst heq
        exact .cons hd hr
      next hne =>
        refine .cons (fun e he => ?_) (ih hr)
        rcases mem_insertEntry he with heq | he
        · rw [heq]
          exact Decidable.byContradiction fun hn =>
            hne (String.le_antisymm (String.not_lt.1 hn) (String.not_lt.1 hge))
        · exact hd e he

def insert (m : SortedMap α) (name : String) (value : α) : SortedMap α :=
  ⟨insertEntry name value m.entries, sorted_insertEntry m.sorted⟩

def find? (m : SortedMap α) (name : String) : Option α :=
  (m.entries.find? (·.1 = name)).map (·.2)

theorem find?_insertEntry (name key : String) (value : α) (es : List (String × α)) :
    (insertEntry name value es).find? (·.1 = key) =
      if name = key then some (name, value) else es.find? (·.1 = key) := by
  induction es with
  | nil => by_cases h : name = key <;> simp [insertEntry, h]
  | cons d r ih =>
    unfold insertEntry
    by_cases h : name = key
    · subst h
      split
      · simp
      · split
        · simp
        next hne => simp [Ne.symm hne, ih]
    · split
      · simp [h]
      · split
        next heq => subst heq; simp [h]
        next => simp [List.find?_cons, h, ih]

@[simp] theorem find?_insert (m : SortedMap α) (name key : String) (value : α) :
    (m.insert name value).find? key = if name = key then some value else m.find? key := by
  simp only [find?, insert, find?_insertEntry]
  split <;> rfl

/-- The map with given entries; of several under one name the last counts. -/
def ofList (es : List (String × α)) : SortedMap α :=
  es.foldl (fun m e => m.insert e.1 e.2) empty

/-- Applies a function that may fail to every value, in the order of the names. -/
def mapM {ε : Type} (f : α → Except ε β) (m : SortedMap α) : Except ε (SortedMap β) :=
  m.entries.foldlM (fun done e => do return done.insert e.1 (← f e.2)) empty

end SortedMap

end RemoteAgent
