import RemoteAgent.Json.Basic

/-!
# Fields of objects

Fields are looked up by name and read in the way that is wanted. What is missing or of another kind
reads as nothing, as an empty text or list, as zero or as false.
-/

namespace RemoteAgent.Json

def string? : Json → Option String
  | string s => some s
  | _ => none

def integer? : Json → Option Int
  | integer n => some n
  | _ => none

def elements : Json → List Json
  | array items => items
  | _ => []

def field (j : Json) (name : String) : Json :=
  (j.field? name).getD null

def text? (j : Json) (name : String) : Option String :=
  (j.field name).string?

def text (j : Json) (name : String) : String :=
  (j.text? name).getD ""

def list (j : Json) (name : String) : List Json :=
  (j.field name).elements

def count? (j : Json) (name : String) : Option Int :=
  (j.field name).integer?

def count (j : Json) (name : String) : Nat :=
  ((j.count? name).getD 0).toNat

def flag (j : Json) (name : String) : Bool :=
  match j.field name with
  | bool b => b
  | _ => false

end RemoteAgent.Json
