/-!
# Effects

A step in a world: it may fail, and it changes the world either way.
-/

namespace RemoteAgent

/-- A step in a world of type `ω` that fails with an `ε` or gives an `α`. -/
abbrev Effect (ω ε α : Type) := EStateM ε ω α

namespace Effect

variable {ω ν ε ε' α : Type}

def mapError (f : ε → ε') (x : Effect ω ε α) : Effect ω ε' α :=
  EStateM.adaptExcept f x

/-- The outcome of a step as a value. -/
def attempt (x : Effect ω ε α) : Effect ω ε' (Except ε α) := fun w =>
  match x w with
  | .ok a w => .ok (.ok a) w
  | .error e w => .ok (.error e) w

/-- A step that has an outcome. -/
def ofExcept : Except ε α → Effect ω ε α
  | .ok a => pure a
  | .error e => throw e

/-- A step in a part of the world. -/
def within (part : ω → ν) (replace : ω → ν → ω) (x : Effect ν ε α) : Effect ω ε α := fun w =>
  match x (part w) with
  | .ok a n => .ok a (replace w n)
  | .error e n => .error e (replace w n)

/-- The outcome of a step and the world after it. -/
def outcome (x : Effect ω ε α) (w : ω) : Except ε α × ω :=
  match x w with
  | .ok a w => (.ok a, w)
  | .error e w => (.error e, w)

end Effect

end RemoteAgent
