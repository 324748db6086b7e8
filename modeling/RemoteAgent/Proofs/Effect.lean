import RemoteAgent.Effect

/-! # Outcomes of effects

What each way of building a step does to its outcome and to the world. With these equations the
outcome of a whole program is one in the outcomes of the steps it is made of.
-/

namespace RemoteAgent

theorem bind_eq_ok_iff {ε α β : Type} {x : Except ε α} {f : α → Except ε β} {b : β} :
    (x >>= f) = .ok b ↔ ∃ a, x = .ok a ∧ f a = .ok b := by
  cases x with
  | error e => exact ⟨nofun, fun ⟨_, h, _⟩ => nomatch h⟩
  | ok a => exact ⟨fun h => ⟨a, rfl, h⟩, fun ⟨_, ha, h⟩ => by cases ha; exact h⟩

theorem bind_eq_error_iff {ε α β : Type} {x : Except ε α} {f : α → Except ε β} {e : ε} :
    (x >>= f) = .error e ↔ x = .error e ∨ ∃ a, x = .ok a ∧ f a = .error e := by
  cases x with
  | error e' =>
    refine ⟨fun h => .inl (Except.error.inj h ▸ rfl), ?_⟩
    rintro (h | ⟨a, ha, -⟩)
    · exact Except.error.inj h ▸ rfl
    · cases ha
  | ok a =>
    refine ⟨fun h => .inr ⟨a, rfl, h⟩, ?_⟩
    rintro (h | ⟨a', ha, h⟩)
    · cases h
    · exact Except.ok.inj ha ▸ h

namespace Effect

variable {ω ν ε ε' α β : Type}

@[simp] theorem mapError_ok (f : ε → ε') (a : α) : (Except.ok a).mapError f = .ok a := rfl

@[simp] theorem mapError_error (f : ε → ε') (e : ε) :
    (Except.error e : Except ε α).mapError f = .error (f e) := rfl

@[simp] theorem outcome_pure (a : α) (w : ω) :
    (pure a : Effect ω ε α).outcome w = (.ok a, w) := rfl

@[simp] theorem outcome_throw (e : ε) (w : ω) :
    (throw e : Effect ω ε α).outcome w = (.error e, w) := rfl

@[simp] theorem outcome_get (w : ω) : (get : Effect ω ε ω).outcome w = (.ok w, w) := rfl

@[simp] theorem outcome_set (v w : ω) : (set v : Effect ω ε PUnit).outcome w = (.ok (), v) := rfl

@[simp] theorem outcome_modify (f : ω → ω) (w : ω) :
    (modify f : Effect ω ε PUnit).outcome w = (.ok (), f w) := rfl

theorem outcome_bind (x : Effect ω ε α) (f : α → Effect ω ε β) (w : ω) :
    (x >>= f).outcome w =
      match x.outcome w with
      | (.ok a, v) => (f a).outcome v
      | (.error e, v) => (.error e, v) := by
  simp only [outcome, bind, EStateM.bind]
  cases x w <;> rfl

theorem outcome_bind_ok {x : Effect ω ε α} {w v : ω} {a : α} (h : x.outcome w = (.ok a, v))
    (f : α → Effect ω ε β) : (x >>= f).outcome w = (f a).outcome v := by
  rw [outcome_bind, h]

theorem outcome_bind_error {x : Effect ω ε α} {w v : ω} {e : ε} (h : x.outcome w = (.error e, v))
    (f : α → Effect ω ε β) : (x >>= f).outcome w = (.error e, v) := by
  rw [outcome_bind, h]

@[simp] theorem outcome_map (f : α → β) (x : Effect ω ε α) (w : ω) :
    (f <$> x).outcome w = ((x.outcome w).1.map f, (x.outcome w).2) := by
  simp only [outcome, Functor.map, EStateM.map]
  cases x w <;> rfl

@[simp] theorem outcome_mapError (f : ε → ε') (x : Effect ω ε α) (w : ω) :
    (x.mapError f).outcome w = ((x.outcome w).1.mapError f, (x.outcome w).2) := by
  simp only [outcome, mapError, EStateM.adaptExcept]
  cases x w <;> rfl

theorem exists_of_mapError {f : ε → ε'} {x : Effect ω ε α} {w v : ω} {e : ε'}
    (h : (x.mapError f).outcome w = (.error e, v)) :
    ∃ cause, x.outcome w = (.error cause, v) ∧ e = f cause := by
  rw [outcome_mapError] at h
  rcases hx : x.outcome w with ⟨cause | a, v'⟩ <;> rw [hx] at h
  · cases h
    exact ⟨cause, rfl, rfl⟩
  · cases h

@[simp] theorem outcome_attempt (x : Effect ω ε α) (w : ω) :
    (x.attempt : Effect ω ε' (Except ε α)).outcome w = (.ok (x.outcome w).1, (x.outcome w).2) := by
  simp only [outcome, attempt]
  cases x w <;> rfl

@[simp] theorem outcome_ofExcept (r : Except ε α) (w : ω) :
    (ofExcept r : Effect ω ε α).outcome w = (r, w) := by
  cases r <;> rfl

@[simp] theorem outcome_within (part : ω → ν) (replace : ω → ν → ω) (x : Effect ν ε α) (w : ω) :
    (x.within part replace).outcome w =
      ((x.outcome (part w)).1, replace w (x.outcome (part w)).2) := by
  simp only [outcome, within]
  cases x (part w) <;> rfl

/-- A step leaves the world alone if it fails, and something holds of whatever it gives and of the
world then. -/
def AllOrNothing (x : Effect ω ε α) (w : ω) (P : α → ω → Prop) : Prop :=
  (∃ e, x.outcome w = (.error e, w)) ∨ ∃ a v, x.outcome w = (.ok a, v) ∧ P a v

namespace AllOrNothing

variable {x : Effect ω ε α} {w : ω} {P : α → ω → Prop} {Q : α → Prop} {R : β → ω → Prop}

theorem throw (e : ε) : AllOrNothing (throw e : Effect ω ε α) w P :=
  .inl ⟨e, rfl⟩

theorem pure {a : α} (h : P a w) : AllOrNothing (pure a : Effect ω ε α) w P :=
  .inr ⟨a, w, rfl, h⟩

theorem get : AllOrNothing (get : Effect ω ε ω) w fun v u => u = w ∧ v = w :=
  .inr ⟨w, w, rfl, rfl, rfl⟩

theorem set {P : PUnit → ω → Prop} {v : ω} (h : P () v) :
    AllOrNothing (set v : Effect ω ε PUnit) w P :=
  .inr ⟨(), v, rfl, h⟩

/-- The first step only looks. -/
theorem bind {f : α → Effect ω ε β} (hx : AllOrNothing x w fun a v => v = w ∧ Q a)
    (hf : ∀ a, Q a → AllOrNothing (f a) w R) : AllOrNothing (x >>= f) w R := by
  rcases hx with ⟨e, hx⟩ | ⟨a, v, hx, rfl, ha⟩
  · exact .inl ⟨e, outcome_bind_error hx f⟩
  · unfold AllOrNothing
    rw [outcome_bind_ok hx f]
    exact hf a ha

theorem mapError (h : AllOrNothing x w P) (f : ε → ε') : AllOrNothing (x.mapError f) w P := by
  unfold AllOrNothing
  rw [outcome_mapError]
  rcases h with ⟨e, h⟩ | ⟨a, v, h, hP⟩ <;> rw [h]
  · exact .inl ⟨f e, rfl⟩
  · exact .inr ⟨a, v, rfl, hP⟩

theorem of_ok {a : α} {v : ω} (h : AllOrNothing x w P) (hx : x.outcome w = (.ok a, v)) : P a v := by
  rcases h with ⟨e, h⟩ | ⟨a', v', h, hP⟩
  · cases hx.symm.trans h
  · cases hx.symm.trans h
    exact hP

theorem of_error {e : ε} {v : ω} (h : AllOrNothing x w P) (hx : x.outcome w = (.error e, v)) :
    v = w := by
  rcases h with ⟨e', h⟩ | ⟨a, v', h, -⟩
  · cases hx.symm.trans h
    rfl
  · cases hx.symm.trans h

end AllOrNothing

end Effect

end RemoteAgent
