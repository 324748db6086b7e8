import Mathlib.Data.List.Nodup
import RemoteAgent.Proofs.Effect
import RemoteAgent.SortedMap

/-! # Finite maps by their lookups

Where names are distinct, a lookup finds the one entry of a name, wherever it stands. So maps are
equal if their lookups are, and a map is read value by value.
-/

namespace RemoteAgent

variable {α β ε : Type} {es es' : List (String × α)} {name : String} {e : String × α}

section Names

theorem find?_name_iff (h : (es.map (·.1)).Nodup) :
    es.find? (·.1 = name) = some e ↔ e ∈ es ∧ e.1 = name := by
  induction es with
  | nil => simp
  | cons d es ih =>
    obtain ⟨hd, hes⟩ := List.nodup_cons.1 h
    by_cases hname : d.1 = name
    · subst hname
      simp only [List.find?_cons, decide_true, Option.some.injEq, List.mem_cons]
      constructor
      · rintro rfl
        exact ⟨.inl rfl, rfl⟩
      · rintro ⟨rfl | he, heq⟩
        · rfl
        · have hmem : e.1 ∈ es.map (·.1) := List.mem_map_of_mem he
          rw [heq] at hmem
          exact absurd hmem hd
    · simp only [List.find?_cons, hname, decide_false, ih hes, List.mem_cons]
      refine and_congr_left fun heq => (or_iff_right ?_).symm
      rintro rfl
      exact hname heq

theorem find?_name_perm (h : (es.map (·.1)).Nodup) (hperm : es.Perm es') :
    es.find? (·.1 = name) = es'.find? (·.1 = name) := by
  refine Option.ext fun e => ?_
  rw [find?_name_iff h, find?_name_iff ((hperm.map _).nodup h), hperm.mem_iff]

theorem find?_name_reverse (h : (es.map (·.1)).Nodup) :
    es.reverse.find? (·.1 = name) = es.find? (·.1 = name) :=
  (find?_name_perm h es.reverse_perm.symm).symm

theorem find?_name_map (f : α → β) (es : List (String × α)) (name : String) :
    (es.map fun e => (e.1, f e.2)).find? (·.1 = name) =
      (es.find? (·.1 = name)).map fun e => (e.1, f e.2) := by
  rw [List.find?_map]
  rfl

theorem nodup_zip {names : List String} (h : names.Nodup) (items : List α) :
    ((names.zip items).map (·.1)).Nodup := by
  induction names generalizing items with
  | nil => simp
  | cons n names ih =>
    obtain ⟨hn, hnames⟩ := List.nodup_cons.1 h
    cases items with
    | nil => simp
    | cons item items =>
      refine List.nodup_cons.2 ⟨fun hmem => ?_, ih hnames items⟩
      obtain ⟨e, he, rfl⟩ := List.mem_map.1 hmem
      exact hn (List.of_mem_zip he).1

theorem find?_name_zip {names : List String} (h : names.Nodup) {i : Nat} (items : List α)
    (hi : names[i]? = some name) :
    ((names.zip items).find? (·.1 = name)).map (·.2) = items[i]? := by
  induction names generalizing items i with
  | nil => simp at hi
  | cons n names ih =>
    obtain ⟨hn, hnames⟩ := List.nodup_cons.1 h
    cases items with
    | nil => simp
    | cons item items =>
      cases i with
      | zero =>
        cases hi
        simp
      | succ i =>
        have hne : n ≠ name := fun heq => hn (heq ▸ List.mem_of_getElem? hi)
        simpa [hne] using ih hnames items hi

end Names

namespace SortedMap

variable {m m' : SortedMap α}

theorem nodup_names (m : SortedMap α) : (m.entries.map (·.1)).Nodup := by
  refine List.pairwise_map.2 (m.sorted.imp fun hlt heq => ?_)
  exact String.lt_irrefl _ (heq ▸ hlt)

theorem find?_eq_some_iff {value : α} : m.find? name = some value ↔ (name, value) ∈ m.entries := by
  rw [find?, Option.map_eq_some_iff]
  constructor
  · rintro ⟨e, he, rfl⟩
    obtain ⟨hmem, rfl⟩ := (find?_name_iff m.nodup_names).1 he
    exact hmem
  · intro hmem
    exact ⟨_, (find?_name_iff m.nodup_names).2 ⟨hmem, rfl⟩, rfl⟩

/-- A map is known by what is found in it. -/
theorem ext_find? (h : ∀ name, m.find? name = m'.find? name) : m = m' := by
  have hmem : ∀ e, e ∈ m.entries ↔ e ∈ m'.entries := by
    rintro ⟨name, value⟩
    rw [← find?_eq_some_iff, ← find?_eq_some_iff, h]
  have hperm : m.entries.Perm m'.entries :=
    (List.perm_ext_iff_of_nodup (m.nodup_names.of_map _) (m'.nodup_names.of_map _)).2 hmem
  have hentries : m.entries = m'.entries := by
    refine hperm.eq_of_pairwise (fun a b _ _ hab hba => ?_) m.sorted m'.sorted
    exact absurd (String.lt_trans hab hba) (String.lt_irrefl _)
  cases m
  cases m'
  cases hentries
  rfl

theorem find?_foldl_insert (es : List (String × α)) (m : SortedMap α) (name : String) :
    (es.foldl (fun m e => m.insert e.1 e.2) m).find? name =
      ((es.reverse.find? (·.1 = name)).map (·.2)).or (m.find? name) := by
  induction es generalizing m with
  | nil => rfl
  | cons e es ih =>
    rw [List.foldl_cons, ih, find?_insert, List.reverse_cons, List.find?_append]
    generalize es.reverse.find? (·.1 = name) = found
    cases found with
    | none => by_cases hname : e.1 = name <;> simp [hname]
    | some d => rfl

theorem find?_ofList (es : List (String × α)) (name : String) :
    (ofList es).find? name = (es.reverse.find? (·.1 = name)).map (·.2) := by
  rw [ofList, find?_foldl_insert]
  exact Option.or_none

theorem foldlM_insert_eq_ok_iff {f : α → Except ε β} {es : List (String × α)}
    {done m' : SortedMap β} :
    es.foldlM (fun done e => do return done.insert e.1 (← f e.2)) done = .ok m' ↔
      ∃ es' : List (String × β),
        (es.map fun e => (e.1, f e.2)) = es'.map (fun e => (e.1, .ok e.2)) ∧
        m' = es'.foldl (fun m e => m.insert e.1 e.2) done := by
  induction es generalizing done with
  | nil =>
    constructor
    · intro h
      cases h
      exact ⟨[], rfl, rfl⟩
    · rintro ⟨es', hes, rfl⟩
      rw [List.map_nil, eq_comm, List.map_eq_nil_iff] at hes
      subst hes
      rfl
  | cons e es ih =>
    simp only [List.foldlM_cons, bind_eq_ok_iff]
    constructor
    · rintro ⟨_, ⟨b, hb, hdone⟩, h⟩
      cases hdone
      obtain ⟨es', hes, rfl⟩ := ih.1 h
      exact ⟨(e.1, b) :: es', by rw [List.map_cons, List.map_cons, hb, hes], rfl⟩
    · rintro ⟨es', hes, rfl⟩
      cases es' with
      | nil => cases hes
      | cons e' es' =>
        simp only [List.map_cons, List.cons.injEq, Prod.mk.injEq] at hes
        obtain ⟨⟨hname, hb⟩, hes⟩ := hes
        exact ⟨_, ⟨e'.2, hb, rfl⟩, ih.2 ⟨es', hes, by rw [List.foldl_cons, hname]⟩⟩

theorem exists_map_ok {f : α → Except ε β} {es : List (String × α)}
    (h : ∀ e ∈ es, ∃ b, f e.2 = .ok b) :
    ∃ es' : List (String × β),
      (es.map fun e => (e.1, f e.2)) = es'.map (fun e => (e.1, .ok e.2)) := by
  induction es with
  | nil => exact ⟨[], rfl⟩
  | cons e es ih =>
    obtain ⟨⟨b, hb⟩, hes⟩ := List.forall_mem_cons.1 h
    obtain ⟨es', hes'⟩ := ih hes
    exact ⟨(e.1, b) :: es', by rw [List.map_cons, List.map_cons, hb, hes']⟩

theorem find?_of_mapM {f : α → Except ε β} {n : SortedMap β} (h : m.mapM f = .ok n)
    (name : String) : (m.find? name).map f = (n.find? name).map .ok := by
  obtain ⟨es, hes, rfl⟩ := foldlM_insert_eq_ok_iff.1 h
  have hnames : m.entries.map (·.1) = es.map (·.1) := by
    simpa only [List.map_map, Function.comp_def] using congrArg (List.map (·.1)) hes
  have hlookup := congrArg (List.find? (·.1 = name)) hes
  rw [find?_name_map, find?_name_map] at hlookup
  have hfound : (ofList es).find? name = (es.find? (·.1 = name)).map (·.2) := by
    rw [find?_ofList, find?_name_reverse (hnames ▸ m.nodup_names)]
  rw [find?]
  refine Eq.trans ?_ (congrArg (Option.map (Except.ok (ε := ε))) hfound.symm)
  simpa only [Option.map_map, Function.comp_def] using congrArg (Option.map (·.2)) hlookup

/-- Applying a function succeeds just if it does on all that is found. -/
theorem mapM_eq_ok_iff {f : α → Except ε β} {n : SortedMap β} :
    m.mapM f = .ok n ↔ ∀ name, (m.find? name).map f = (n.find? name).map .ok := by
  refine ⟨find?_of_mapM, fun h => ?_⟩
  have hok : ∀ e ∈ m.entries, ∃ b, f e.2 = .ok b := by
    intro e he
    have hf := h e.1
    rw [find?_eq_some_iff.2 he, Option.map_some, eq_comm, Option.map_eq_some_iff] at hf
    obtain ⟨b, -, hb⟩ := hf
    exact ⟨b, hb.symm⟩
  obtain ⟨es, hes⟩ := exists_map_ok hok
  have hmapM : m.mapM f = .ok (ofList es) := foldlM_insert_eq_ok_iff.2 ⟨es, hes, rfl⟩
  have heq : ofList es = n := by
    refine ext_find? fun name => ?_
    have hlookup := (find?_of_mapM hmapM name).symm.trans (h name)
    exact Option.map_injective (fun _ _ hab => Except.ok.inj hab) hlookup
  rw [hmapM, heq]

end SortedMap

end RemoteAgent
