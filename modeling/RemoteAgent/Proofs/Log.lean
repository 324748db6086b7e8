import RemoteAgent.Proofs.Effect

/-! # Programs that keep a log

Where a part of the world is a log, a program only adds to it if all its parts do, and what it adds
is of the kinds that they add.
-/

namespace RemoteAgent.Effect

variable {ω ε ε' α β η : Type} {log : ω → List η} {P : η → Prop}

/-- A program adds to a log, and only entries of a kind. -/
def Adds (log : ω → List η) (P : η → Prop) (x : Effect ω ε α) : Prop :=
  ∀ w, ∃ entries, log (x.outcome w).2 = log w ++ entries ∧ ∀ e ∈ entries, P e

namespace Adds

variable {x : Effect ω ε α}

theorem of_outcome (entries : List η) (h : ∀ w, log (x.outcome w).2 = log w ++ entries)
    (hp : ∀ e ∈ entries, P e) : Adds log P x :=
  fun w => ⟨entries, h w, hp⟩

theorem of_unchanged (h : ∀ w, log (x.outcome w).2 = log w) : Adds log P x :=
  .of_outcome [] (fun w => (h w).trans (List.append_nil _).symm) nofun

theorem mono {Q : η → Prop} (h : Adds log P x) (hpq : ∀ e, P e → Q e) : Adds log Q x := by
  intro w
  obtain ⟨entries, hl, hp⟩ := h w
  exact ⟨entries, hl, fun e he => hpq e (hp e he)⟩

/-- What comes after a step may be known only for what that step can give. -/
theorem bind_of_ok {f : α → Effect ω ε β} (hx : Adds log P x)
    (hf : ∀ w a v, x.outcome w = (.ok a, v) → Adds log P (f a)) : Adds log P (x >>= f) := by
  intro w
  obtain ⟨entries, hl, hp⟩ := hx w
  rcases hw : x.outcome w with ⟨e | a, v⟩ <;> rw [hw] at hl
  · exact ⟨entries, by rw [outcome_bind_error hw]; exact hl, hp⟩
  · obtain ⟨entries', hl', hp'⟩ := hf w a v hw v
    refine ⟨entries ++ entries', ?_, ?_⟩
    · rw [outcome_bind_ok hw, hl', hl, List.append_assoc]
    · simpa only [List.forall_mem_append] using ⟨hp, hp'⟩

theorem bind {f : α → Effect ω ε β} (hx : Adds log P x) (hf : ∀ a, Adds log P (f a)) :
    Adds log P (x >>= f) :=
  hx.bind_of_ok fun _ a _ _ => hf a

theorem within {ν : Type} {part : ν → ω} {replace : ν → ω → ν} (h : Adds log P x)
    (hreplace : ∀ w v, part (replace w v) = v) :
    Adds (fun w => log (part w)) P (x.within part replace) := by
  intro w
  simpa only [outcome_within, hreplace] using h (part w)

theorem attempt (h : Adds log P x) :
    Adds log P (x.attempt : Effect ω ε' (Except ε α)) := by
  intro w
  simpa only [outcome_attempt] using h w

theorem mapError (h : Adds log P x) (f : ε → ε') : Adds log P (x.mapError f) := by
  intro w
  simpa only [outcome_mapError] using h w

end Adds

theorem adds_pure (a : α) : Adds log P (pure a : Effect ω ε α) :=
  .of_unchanged fun _ => rfl

theorem adds_ofExcept (r : Except ε α) : Adds log P (Effect.ofExcept r : Effect ω ε α) :=
  .of_unchanged fun w => by rw [outcome_ofExcept]

end RemoteAgent.Effect
