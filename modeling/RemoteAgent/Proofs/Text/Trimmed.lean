import Mathlib.Data.List.TakeWhile
import RemoteAgent.Text.Basic

/-! # Trimmed texts

What trimming leaves is told by three facts: only white space is around it, and it neither begins
nor ends with any.
-/

namespace RemoteAgent.Text

variable {cs core : List Char}

/-- `core` is `cs` without the white space around it. -/
structure Trims (cs core : List Char) : Prop where
  around : ∃ before after, cs = before ++ (core ++ after) ∧
    (∀ c ∈ before, isBlank c = true) ∧ ∀ c ∈ after, isBlank c = true
  begins : ∀ c ∈ core.head?, isBlank c = false
  ends : ∀ c ∈ core.getLast?, isBlank c = false

section Dropping

variable {p : Char → Bool} {a b : List Char}

theorem dropWhile_append_of_head (ha : ∀ c ∈ a, p c = true) (hb : ∀ c ∈ b.head?, p c = false) :
    (a ++ b).dropWhile p = b := by
  rw [List.dropWhile_append_of_pos ha]
  cases b with
  | nil => rfl
  | cons c b => rw [List.dropWhile_cons, hb c rfl, if_neg Bool.false_ne_true]

theorem dropEndWhile_append_of_getLast (ha : ∀ c ∈ a, p c = true)
    (hb : ∀ c ∈ b.getLast?, p c = false) : dropEndWhile p (b ++ a) = b := by
  rw [dropEndWhile, List.reverse_append, dropWhile_append_of_head, List.reverse_reverse]
  · simpa using ha
  · simpa using hb

theorem exists_dropWhile (p : Char → Bool) (cs : List Char) :
    ∃ before, cs = before ++ cs.dropWhile p ∧ (∀ c ∈ before, p c = true) ∧
      ∀ c ∈ (cs.dropWhile p).head?, p c = false := by
  refine ⟨cs.takeWhile p, List.takeWhile_append_dropWhile.symm,
    fun c => List.mem_takeWhile_imp, fun c hc => ?_⟩
  have hhead := List.head?_dropWhile_not p cs
  rwa [hc] at hhead

end Dropping

theorem trims_trimBlanks (cs : List Char) : Trims cs (trimBlanks cs) := by
  obtain ⟨before, hbefore, hblank, hbegins⟩ := exists_dropWhile isBlank cs
  obtain ⟨after, hafter, hblank', hends⟩ :=
    exists_dropWhile isBlank (cs.dropWhile isBlank).reverse
  have hrest : cs.dropWhile isBlank = trimBlanks cs ++ after.reverse := by
    have := congrArg List.reverse hafter
    rwa [List.reverse_reverse, List.reverse_append] at this
  refine ⟨⟨before, after.reverse, hrest ▸ hbefore, hblank, ?_⟩, fun c hc => ?_, fun c hc => ?_⟩
  · simpa using hblank'
  · refine hbegins c ?_
    rw [hrest]
    rw [List.head?_append, hc]
    rfl
  · refine hends c ?_
    rwa [trimBlanks, dropEndWhile, List.getLast?_reverse] at hc

theorem Trims.trimBlanks_eq (h : Trims cs core) : trimBlanks cs = core := by
  obtain ⟨⟨before, after, rfl, hbefore, hafter⟩, hbegins, hends⟩ := h
  cases core with
  | nil =>
    have hall : ∀ c ∈ before ++ after, isBlank c = true :=
      List.forall_mem_append.2 ⟨hbefore, hafter⟩
    rw [trimBlanks, List.nil_append, List.dropWhile_eq_nil_iff.2 hall]
    rfl
  | cons c core =>
    rw [trimBlanks, dropWhile_append_of_head (b := c :: core ++ after) hbefore hbegins,
      dropEndWhile_append_of_getLast hafter hends]

theorem trimBlanks_eq_iff : trimBlanks cs = core ↔ Trims cs core :=
  ⟨fun h => h ▸ trims_trimBlanks cs, Trims.trimBlanks_eq⟩

end RemoteAgent.Text
