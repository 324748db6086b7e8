import RemoteAgent.Proofs.Effect
import RemoteAgent.Transport.Basic

/-! # Programs that do the same

Two programs may differ and still do the same in all worlds in which some fact holds. If they keep
the fact, then whatever is put together from them does the same as well, and keeps it.
-/

namespace RemoteAgent

namespace Effect

variable {ω ν ε ε' α β : Type} {I : ω → Prop} {x y : Effect ω ε α} {w : ω}

theorem outcome_bind_congr {w' : ω} (h : x.outcome w = x.outcome w') (f : α → Effect ω ε β) :
    (x >>= f).outcome w = (x >>= f).outcome w' := by
  rw [outcome_bind, h, ← outcome_bind]

theorem outcome_of_mapError {f : ε → ε'} {w' : ω} {a : α}
    (h : (x.mapError f).outcome w = (.ok a, w')) : x.outcome w = (.ok a, w') := by
  rw [outcome_mapError] at h
  rcases hx : x.outcome w with ⟨e | a', v⟩ <;> rw [hx] at h <;> cases h
  rfl

/-- In a world two programs do the same, and a fact holds after them. -/
def SameAt (I : ω → Prop) (x y : Effect ω ε α) (w : ω) : Prop :=
  y.outcome w = x.outcome w ∧ I (x.outcome w).2

/-- Two programs do the same in all worlds in which a fact holds, and keep it. -/
def Same (I : ω → Prop) (x y : Effect ω ε α) : Prop :=
  ∀ w, I w → SameAt I x y w

namespace SameAt

theorem bind {f g : α → Effect ω ε β} (h : SameAt I x y w)
    (hf : ∀ a w', x.outcome w = (.ok a, w') → I w' → SameAt I (f a) (g a) w') :
    SameAt I (x >>= f) (y >>= g) w := by
  obtain ⟨hsame, hkeep⟩ := h
  unfold SameAt
  rcases hx : x.outcome w with ⟨e | a, w'⟩ <;> rw [hx] at hsame hkeep
  · rw [outcome_bind_error hx, outcome_bind_error hsame]
    exact ⟨rfl, hkeep⟩
  · rw [outcome_bind_ok hx, outcome_bind_ok hsame]
    exact hf a w' hx hkeep

theorem mapError (h : SameAt I x y w) (f : ε → ε') :
    SameAt I (x.mapError f) (y.mapError f) w := by
  unfold SameAt
  simp only [outcome_mapError]
  exact ⟨by rw [h.1], h.2⟩

/-- What does the same in a part of the world does the same in all of it. -/
theorem within {part : ν → ω} {replace : ν → ω → ν} {v : ν} (h : SameAt I x y (part v))
    (hpart : ∀ v n, part (replace v n) = n) :
    SameAt (fun v => I (part v)) (x.within part replace) (y.within part replace) v := by
  unfold SameAt
  simp only [outcome_within, hpart]
  exact ⟨by rw [h.1], h.2⟩

end SameAt

namespace Same

theorem of_keeps (h : ∀ w, I w → I (x.outcome w).2) : Same I x x :=
  fun w hw => ⟨rfl, h w hw⟩

theorem of_unchanged (h : ∀ w, (x.outcome w).2 = w) : Same I x x :=
  .of_keeps fun w hw => (h w).symm ▸ hw

theorem bind {f g : α → Effect ω ε β} (h : Same I x y) (hf : ∀ a, Same I (f a) (g a)) :
    Same I (x >>= f) (y >>= g) :=
  fun w hw => (h w hw).bind fun a w' _ hw' => hf a w' hw'

theorem attempt (h : Same I x y) :
    Same I (x.attempt : Effect ω ε' (Except ε α)) y.attempt := by
  intro w hw
  unfold SameAt
  simp only [outcome_attempt]
  exact ⟨by rw [(h w hw).1], (h w hw).2⟩

theorem mapError (h : Same I x y) (f : ε → ε') : Same I (x.mapError f) (y.mapError f) :=
  fun w hw => (h w hw).mapError f

end Same

end Effect

open Effect

variable {ω κ : Type} {t t' : Transport ω κ} {I : ω → Prop}

/-- The uses of a transport keep a fact of its world. What is started has just been prepared. -/
structure Transport.Keeps (t : Transport ω κ) (I : ω → Prop) : Prop where
  copy : ∀ file name {o : ω}, I o → I ((t.copy file name).outcome o).2
  command : ∀ line {o : ω}, I o → I ((t.command line).outcome o).2
  start : ∀ {line : String} {o o' : ω} {prepared : κ}, I o →
    (t.command line).outcome o = (.ok prepared, o') → I ((t.start prepared).outcome o').2

def Prompter.Keeps (p : Prompter ω) (I : ω → Prop) : Prop :=
  ∀ text {o : ω}, I o → I ((p.message text).outcome o).2

/-- Two transports do the same, whatever they are used for. -/
structure Transport.Same (t t' : Transport ω κ) (I : ω → Prop) : Prop where
  copy : ∀ file name, Effect.Same I (t.copy file name) (t'.copy file name)
  command : ∀ line, Effect.Same I (t.command line) (t'.command line)
  start : ∀ {line : String} {o o' : ω} {prepared : κ}, I o →
    (t.command line).outcome o = (.ok prepared, o') →
    SameAt I (t.start prepared) (t'.start prepared) o'

theorem Transport.Keeps.same (h : t.Keeps I) : t.Same t I where
  copy file name := .of_keeps fun _ ho => h.copy file name ho
  command line := .of_keeps fun _ ho => h.command line ho
  start ho hc := ⟨rfl, h.start ho hc⟩

theorem Transport.Same.run (h : t.Same t' I) (line : String) :
    Effect.Same I (t.run line) (t'.run line) := by
  refine fun o ho => (h.command line o ho).bind fun prepared o' hc _ => ?_
  refine ((h.start ho hc).mapError _).bind fun process o'' _ ho'' => ?_
  exact Effect.Same.of_unchanged (fun w => by rw [outcome_ofExcept]) o'' ho''

end RemoteAgent
