import RemoteAgent.Text.Basic

/-!
# Rules for replies

A rule applies to lines of a certain form. The first rule that applies answers, and each time it
answers it gives its next reply, the last one again and again.
-/

namespace RemoteAgent.Rehearsal

inductive Condition where
  | beginsWith (text : String)
  | endsWith (text : String)
  | contains (text : String)
  | equals (text : String)
  deriving DecidableEq, Repr

def Condition.holds (line : String) : Condition → Bool
  | beginsWith text => text.toList.isPrefixOf line.toList
  | endsWith text => text.toList.isSuffixOf line.toList
  | contains text => Text.occursIn text.toList line.toList
  | equals text => line = text

/-- A rule with the replies that it has left; it has at least one, and the last one stays. -/
structure Rule (α : Type) where
  conditions : List Condition
  replies : List α

namespace Rule

variable {α : Type}

def applies (line : String) (r : Rule α) : Bool :=
  r.conditions.all (·.holds line)

/-- The next reply, and the rule after it. -/
def next (otherwise : α) (r : Rule α) : α × Rule α :=
  match r.replies with
  | [] => (otherwise, r)
  | [reply] => (reply, r)
  | reply :: replies => (reply, { r with replies })

/-- The reply to a line, and the rules after it. -/
def answer (otherwise : α) (line : String) : List (Rule α) → α × List (Rule α)
  | [] => (otherwise, [])
  | r :: rest =>
    if r.applies line then
      let (reply, r) := r.next otherwise
      (reply, r :: rest)
    else
      let (reply, rest) := answer otherwise line rest
      (reply, r :: rest)

end Rule

end RemoteAgent.Rehearsal
