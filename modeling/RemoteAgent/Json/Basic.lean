import RemoteAgent.Decimal.Basic

/-!
# JSON values

A number written with neither a point nor an exponent is an integer; all others, and minus zero, are
decimals.
-/

namespace RemoteAgent

/-- A JSON value. The fields of an object stay in the order in which they were written. -/
inductive Json where
  | null
  | bool (value : Bool)
  | integer (value : Int)
  | decimal (value : Decimal)
  | string (value : String)
  | array (items : List Json)
  | object (fields : List (String × Json))

namespace Json

/-- The value of a field; the last one of a name counts. -/
def field? (name : String) : Json → Option Json
  | object fields => (fields.reverse.find? (·.1 = name)).map (·.2)
  | _ => none

end Json

end RemoteAgent
