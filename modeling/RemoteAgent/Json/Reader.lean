import RemoteAgent.Json.Basic

/-!
# Reading JSON

Every reader takes a value from the front of a text and gives back the rest.
-/

namespace RemoteAgent.Json

def skipBlanks (cs : List Char) : List Char :=
  cs.dropWhile fun c => c == ' ' || c == '\n' || c == '\r' || c == '\t'

/-- The value of a hexadecimal digit. -/
def hexDigit? (c : Char) : Option Nat :=
  if '0' ≤ c ∧ c ≤ '9' then some (c.toNat - '0'.toNat)
  else if 'a' ≤ c ∧ c ≤ 'f' then some (c.toNat - 'a'.toNat + 10)
  else if 'A' ≤ c ∧ c ≤ 'F' then some (c.toNat - 'A'.toNat + 10)
  else none

def hexWord? (a b c d : Char) : Option Nat := do
  return (((← hexDigit? a) * 16 + (← hexDigit? b)) * 16 + (← hexDigit? c)) * 16 + (← hexDigit? d)

/-- What a one-letter escape stands for. -/
def escape? : Char → Option Char
  | '"' => some '"'
  | '\\' => some '\\'
  | '/' => some '/'
  | 'b' => some '\x08'
  | 'f' => some '\x0c'
  | 'n' => some '\n'
  | 'r' => some '\r'
  | 't' => some '\t'
  | _ => none

/-- The rest of a string after its opening quote; what was read is held last character first. Two
escaped surrogates make one character. -/
def stringRest (done : List Char) : List Char → Option (String × List Char)
  | '"' :: r => some (String.ofList done.reverse, r)
  | '\\' :: 'u' :: a :: b :: c :: d :: r =>
    match hexWord? a b c d with
    | none => none
    | some high =>
      if high < 0xD800 ∨ 0xDFFF < high then stringRest (Char.ofNat high :: done) r
      else
        match r with
        | '\\' :: 'u' :: a :: b :: c :: d :: r =>
          match hexWord? a b c d with
          | none => none
          | some low =>
            if high < 0xDC00 ∧ 0xDC00 ≤ low ∧ low ≤ 0xDFFF then
              let point := 0x10000 + (high - 0xD800) * 0x400 + (low - 0xDC00)
              stringRest (Char.ofNat point :: done) r
            else none
        | _ => none
  | '\\' :: c :: r =>
    match escape? c with
    | none => none
    | some c => stringRest (c :: done) r
  | c :: r => if c < ' ' then none else stringRest (c :: done) r
  | [] => none

/-- The characters that a number is made of. -/
def isNumberChar (c : Char) : Bool :=
  c.isDigit || c == '-' || c == '+' || c == '.' || c == 'e' || c == 'E'

/-- The value of a number as it is written. -/
def number? (cs : List Char) : Option Json :=
  let integer? : Option Json := match cs with
    | '-' :: r =>
      match Numeral.ofDigits? 10 r with
      | some 0 | none => none
      | some n => some (.integer (-(n : Int)))
    | r => (Numeral.ofDigits? 10 r).map fun n => .integer n
  integer?.or ((Decimal.ofText? cs).map .decimal)

mutual

/-- A value of at most the given depth. -/
def value : Nat → List Char → Option (Json × List Char)
  | 0, _ => none
  | fuel + 1, cs =>
    match skipBlanks cs with
    | 'n' :: 'u' :: 'l' :: 'l' :: r => some (.null, r)
    | 't' :: 'r' :: 'u' :: 'e' :: r => some (.bool true, r)
    | 'f' :: 'a' :: 'l' :: 's' :: 'e' :: r => some (.bool false, r)
    | '"' :: r => (stringRest [] r).map fun (s, r) => (.string s, r)
    | '[' :: r =>
      match skipBlanks r with
      | ']' :: r => some (.array [], r)
      | r => items fuel [] r
    | '\x7b' :: r =>
      match skipBlanks r with
      | '\x7d' :: r => some (.object [], r)
      | r => fields fuel [] r
    | r => (number? (r.takeWhile isNumberChar)).map fun n => (n, r.dropWhile isNumberChar)

/-- The items of an array and its closing bracket; those read are held last first. -/
def items : Nat → List Json → List Char → Option (Json × List Char)
  | 0, _, _ => none
  | fuel + 1, done, cs =>
    match value fuel cs with
    | none => none
    | some (item, r) =>
      match skipBlanks r with
      | ',' :: r => items fuel (item :: done) r
      | ']' :: r => some (.array (item :: done).reverse, r)
      | _ => none

/-- The fields of an object and its closing brace; those read are held last first. -/
def fields : Nat → List (String × Json) → List Char → Option (Json × List Char)
  | 0, _, _ => none
  | fuel + 1, done, cs =>
    match skipBlanks cs with
    | '"' :: r =>
      match stringRest [] r with
      | none => none
      | some (name, r) =>
        match skipBlanks r with
        | ':' :: r =>
          match value fuel r with
          | none => none
          | some (item, r) =>
            match skipBlanks r with
            | ',' :: r => fields fuel ((name, item) :: done) r
            | '\x7d' :: r => some (.object ((name, item) :: done).reverse, r)
            | _ => none
        | _ => none
    | _ => none

end

/-- Reads a text that holds one value. -/
def parse? (s : String) : Option Json :=
  let cs := s.toList
  match value (cs.length + 1) cs with
  | some (v, r) => if (skipBlanks r).isEmpty then some v else none
  | none => none

end RemoteAgent.Json
