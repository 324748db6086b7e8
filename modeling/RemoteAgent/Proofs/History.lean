import Mathlib.Data.List.Basic

/-! # Histories

What was done is listed in the order in which it was done. Whether an entry may stand in such a list
depends on the entries before it.
-/

namespace RemoteAgent

variable {α : Type}

/-- Every entry of a history may follow the entries before it. -/
def Follows (P : List α → α → Prop) (history : List α) : Prop :=
  ∀ before entry after, history = before ++ entry :: after → P before entry

variable {P : List α → α → Prop}

@[simp] theorem follows_nil : Follows P [] := by
  intro before entry after h
  simp at h

@[simp] theorem follows_cons {entry : α} {history : List α} :
    Follows P (entry :: history) ↔
      P [] entry ∧ Follows (fun before => P (entry :: before)) history := by
  constructor
  · intro h
    refine ⟨h [] entry history rfl, ?_⟩
    rintro before later after rfl
    exact h (entry :: before) later after rfl
  · rintro ⟨hentry, h⟩ (_ | ⟨first, before⟩) later after heq
    · cases heq
      exact hentry
    · cases heq
      exact h before later after rfl

@[simp] theorem follows_append {history more : List α} :
    Follows P (history ++ more) ↔
      Follows P history ∧ Follows (fun before => P (history ++ before)) more := by
  induction history generalizing P with
  | nil => simp
  | cons entry history ih => simp [ih, and_assoc]

theorem Follows.of_isPrefix {before history : List α} (h : Follows P history)
    (hbefore : before <+: history) : Follows P before := by
  obtain ⟨after, rfl⟩ := hbefore
  exact (follows_append.1 h).1

theorem Follows.concat {history : List α} {entry : α} (h : Follows P history)
    (hentry : P history entry) : Follows P (history ++ [entry]) := by
  simpa [h] using hentry

end RemoteAgent
