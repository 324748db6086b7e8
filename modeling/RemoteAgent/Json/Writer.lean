import RemoteAgent.Json.Basic

/-!
# Writing JSON

Values are written without blanks. Characters outside ASCII are written as escapes, those beyond
sixteen bits as two surrogates.
-/

namespace RemoteAgent.Json

def hexWord (n : Nat) : List Char :=
  [n / 4096 % 16, n / 256 % 16, n / 16 % 16, n % 16].map Nat.digitChar

/-- A character as it stands in a string. -/
def writeChar (c : Char) : List Char :=
  let unit (n : Nat) : List Char := '\\' :: 'u' :: hexWord n
  if c = '"' then ['\\', '"']
  else if c = '\\' then ['\\', '\\']
  else if ' ' ≤ c ∧ c ≤ '~' then [c]
  else if c.toNat < 0x10000 then unit c.toNat
  else
    let n := c.toNat - 0x10000
    unit (0xD800 + n / 0x400) ++ unit (0xDC00 + n % 0x400)

def writeString (s : String) : String :=
  String.ofList ('"' :: s.toList.flatMap writeChar ++ ['"'])

def writeDecimal (d : Decimal) : String :=
  (if d.negative then "-" else "") ++ toString d.coefficient ++ "e" ++ toString d.exponent

mutual

def write : Json → String
  | null => "null"
  | bool b => if b then "true" else "false"
  | integer n => toString n
  | decimal d => writeDecimal d
  | string s => writeString s
  | array items => "[" ++ ",".intercalate (writeItems items) ++ "]"
  | object fields => "\x7b" ++ ",".intercalate (writeFields fields) ++ "\x7d"

def writeItems : List Json → List String
  | [] => []
  | item :: r => write item :: writeItems r

def writeFields : List (String × Json) → List String
  | [] => []
  | (name, item) :: r => (writeString name ++ ":" ++ write item) :: writeFields r

end

end RemoteAgent.Json
