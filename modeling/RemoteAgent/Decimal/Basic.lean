import RemoteAgent.Numeral

/-!
# Decimal fractions

A decimal is a whole number of units of some power of ten, with a sign that zero has too.
-/

namespace RemoteAgent

/-- The number `coefficient * 10 ^ exponent`, negated if `negative`. -/
structure Decimal where
  negative : Bool
  coefficient : Nat
  exponent : Int
  deriving DecidableEq, Repr

namespace Decimal

/-- Splits off the digits at the front. -/
def spanDigits (cs : List Char) : List Char × List Char :=
  (cs.takeWhile Char.isDigit, cs.dropWhile Char.isDigit)

/-- The number that digits denote, none of them denoting zero. -/
def digitsValue (cs : List Char) : Nat :=
  cs.foldl (fun n c => 10 * n + (c.toNat - '0'.toNat)) 0

/-- An exponent: an optional sign and one or more digits, and nothing after it. -/
def exponent? (cs : List Char) : Option Int :=
  let (negative, digits) := match cs with
    | '-' :: r => (true, r)
    | '+' :: r => (false, r)
    | cs => (false, cs)
  (Numeral.ofDigits? 10 digits).map fun n => if negative then -(n : Int) else n

/-- A decimal without a sign: digits with an optional point among or around them, at least one
digit, and an optional exponent after an `e` or `E`. -/
def unsigned? (negative : Bool) (cs : List Char) : Option Decimal :=
  let (whole, rest) := spanDigits cs
  let (fraction, rest) := match rest with
    | '.' :: r => spanDigits r
    | r => ([], r)
  if whole.isEmpty && fraction.isEmpty then none
  else
    let scaled (e : Int) : Decimal :=
      ⟨negative, digitsValue (whole ++ fraction), e - fraction.length⟩
    match rest with
    | [] => some (scaled 0)
    | c :: r => if c = 'e' ∨ c = 'E' then (exponent? r).map scaled else none

/-- A decimal with an optional sign. -/
def ofText? : List Char → Option Decimal
  | '-' :: r => unsigned? true r
  | '+' :: r => unsigned? false r
  | cs => unsigned? false cs

end Decimal

end RemoteAgent
