import Mathlib.Data.List.Basic
import RemoteAgent.Text.Basic

/-! # Words and the gaps between them

A text spells its words and no others, however wide the gaps of white space about them are. So two
texts with the same words can differ only in their gaps.
-/

namespace RemoteAgent.Text

/-- White space only. -/
def IsGap (gap : List Char) : Prop :=
  ∀ c ∈ gap, isBlank c = true

structure IsWord (word : List Char) : Prop where
  ne_nil : word ≠ []
  notBlank : ∀ c ∈ word, isBlank c = false

/-- Nothing that stands here would go on with a word before it. -/
def EndsWord (rest : List Char) : Prop :=
  ∀ c ∈ rest.head?, isBlank c = true

/-- A text that has these words, in this order, with gaps about them. -/
inductive Spells : List (List Char) → List Char → Prop where

  | nil {gap : List Char} : IsGap gap → Spells [] gap

  | cons {gap word rest : List Char} {words : List (List Char)} : IsGap gap → IsWord word →
      EndsWord rest → Spells words rest → Spells (word :: words) (gap ++ word ++ rest)

variable {gap gap' word rest cs : List Char} {ws : List (List Char)} {c : Char}

theorem IsGap.nil : IsGap [] := nofun

theorem IsGap.append (h : IsGap gap) (h' : IsGap gap') : IsGap (gap ++ gap') :=
  fun c hc => (List.mem_append.1 hc).elim (h c) (h' c)

theorem IsGap.endsWord (h : IsGap gap) : EndsWord gap :=
  fun c hc => h c (List.mem_of_mem_head? hc)

theorem IsGap.endsWord_append (h : IsGap gap) (hne : gap ≠ []) (rest : List Char) :
    EndsWord (gap ++ rest) := by
  intro c hc
  rw [List.head?_append_of_ne_nil _ hne] at hc
  exact h.endsWord c hc

theorem Spells.gap_append (hgap : IsGap gap) (h : Spells ws cs) : Spells ws (gap ++ cs) := by
  cases h with
  | nil hgap' => exact .nil (hgap.append hgap')
  | cons hgap' hword hends hrest =>
    simp only [List.append_assoc]
    rw [← List.append_assoc, ← List.append_assoc]
    exact .cons (hgap.append hgap') hword hends hrest

section Reading

theorem wordsFrom_gap (h : IsGap gap) (rest : List Char) :
    wordsFrom [] (gap ++ rest) = wordsFrom [] rest := by
  induction gap with
  | nil => rfl
  | cons c gap ih =>
    obtain ⟨hc, hgap⟩ := List.forall_mem_cons.1 h
    rw [List.cons_append, wordsFrom, if_pos hc]
    exact ih hgap

theorem wordsFrom_notBlank (h : ∀ c ∈ word, isBlank c = false) (begun rest : List Char) :
    wordsFrom begun (word ++ rest) = wordsFrom (word.reverse ++ begun) rest := by
  induction word generalizing begun with
  | nil => rfl
  | cons c word ih =>
    obtain ⟨hc, hword⟩ := List.forall_mem_cons.1 h
    rw [List.cons_append, wordsFrom, if_neg (by simp [hc]), ih hword]
    simp

theorem wordsFrom_of_endsWord {begun : List Char} (hne : begun ≠ []) (h : EndsWord rest) :
    wordsFrom begun rest = begun.reverse :: wordsFrom [] rest := by
  have hbegun : begun.isEmpty = false := by simpa using hne
  cases rest with
  | nil => simp [wordsFrom, hbegun]
  | cons c rest =>
    have hc : isBlank c = true := h c rfl
    simp [wordsFrom, hc, hbegun]

theorem Spells.words_eq (h : Spells ws cs) : words cs = ws := by
  unfold words
  induction h with
  | @nil gap hgap =>
    have h := wordsFrom_gap hgap []
    rwa [List.append_nil] at h
  | cons hgap hword hends _ ih =>
    rw [List.append_assoc, wordsFrom_gap hgap, wordsFrom_notBlank hword.notBlank, List.append_nil,
      wordsFrom_of_endsWord (by simpa using hword.ne_nil) hends, ih, List.reverse_reverse]

theorem isWord_reverse {begun : List Char} (hne : begun ≠ [])
    (h : ∀ c ∈ begun, isBlank c = false) : IsWord begun.reverse :=
  ⟨by simpa using hne, by simpa using h⟩

/-- Reading a text from within a word finds that word first. -/
theorem spells_wordsFrom {begun : List Char} (h : ∀ c ∈ begun, isBlank c = false)
    (cs : List Char) : Spells (wordsFrom begun cs) (begun.reverse ++ cs) := by
  induction cs generalizing begun with
  | nil =>
    by_cases hne : begun = []
    · subst hne
      exact .nil .nil
    · rw [wordsFrom_of_endsWord hne IsGap.nil.endsWord]
      exact .cons .nil (isWord_reverse hne h) IsGap.nil.endsWord (.nil .nil)
  | cons c cs ih =>
    rcases hc : isBlank c with _ | _
    · rw [wordsFrom, if_neg (by simp [hc]), show begun.reverse ++ c :: cs =
        (c :: begun).reverse ++ cs by simp]
      exact ih (List.forall_mem_cons.2 ⟨hc, h⟩)
    · have hgap : IsGap [c] := by simpa [IsGap] using hc
      have hrest : Spells (wordsFrom [] (c :: cs)) (c :: cs) := by
        rw [← List.singleton_append, wordsFrom_gap hgap]
        exact (@ih [] nofun).gap_append hgap
      by_cases hne : begun = []
      · subst hne
        exact hrest
      · have hends : EndsWord (c :: cs) := hgap.endsWord_append (by simp) cs
        rw [wordsFrom_of_endsWord hne hends]
        exact .cons .nil (isWord_reverse hne h) hends hrest

theorem words_eq_iff : words cs = ws ↔ Spells ws cs :=
  ⟨fun h => h ▸ @spells_wordsFrom [] nofun cs, Spells.words_eq⟩

end Reading

/-- Two words make a text with a gap between them that is not empty. -/
theorem spells_pair_iff {first second : List Char} :
    Spells [first, second] cs ↔ IsWord first ∧ IsWord second ∧ ∃ before between after,
      IsGap before ∧ IsGap between ∧ between ≠ [] ∧ IsGap after ∧
      cs = before ++ first ++ between ++ second ++ after := by
  constructor
  · intro h
    cases h with
    | @cons before _ rest _ hbefore hfirst hends hrest =>
      cases hrest with
      | @cons between _ after _ hbetween hsecond _ hafter =>
        cases hafter with
        | nil hafter =>
          refine ⟨hfirst, hsecond, before, between, after, hbefore, hbetween, ?_, hafter, by simp⟩
          -- The second word would go on with the first.
          rintro rfl
          obtain ⟨c, second, rfl⟩ := List.exists_cons_of_ne_nil hsecond.ne_nil
          have hblank := hends c rfl
          rw [hsecond.notBlank c List.mem_cons_self] at hblank
          cases hblank
  · rintro ⟨hfirst, hsecond, before, between, after, hbefore, hbetween, hne, hafter, rfl⟩
    rw [show before ++ first ++ between ++ second ++ after =
      before ++ first ++ (between ++ second ++ after) by simp]
    refine .cons hbefore hfirst ?_ (.cons hbetween hsecond hafter.endsWord (.nil hafter))
    rw [List.append_assoc]
    exact hbetween.endsWord_append hne _

end RemoteAgent.Text
