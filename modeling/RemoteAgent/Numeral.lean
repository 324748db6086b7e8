/-!
# Numerals

Digit strings read in a base up to ten.
-/

namespace RemoteAgent.Numeral

/-- Numbers of 64 bits are below this one. -/
def wordLimit : Nat := 0x10000000000000000

/-- The value of a digit in a base up to ten. -/
def digit? (base : Nat) (c : Char) : Option Nat :=
  if '0' ≤ c ∧ c.toNat - '0'.toNat < base then some (c.toNat - '0'.toNat) else none

/-- The digits appended to a number already read. -/
def extend? (base n : Nat) : List Char → Option Nat
  | [] => some n
  | c :: r => do extend? base (base * n + (← digit? base c)) r

def ofDigits? (base : Nat) : List Char → Option Nat
  | [] => none
  | cs => extend? base 0 cs

/-- A numeral with an optional plus sign that denotes a number below `limit`. -/
def ofSigned? (base limit : Nat) (cs : List Char) : Option Nat :=
  let digits := match cs with
    | '+' :: r => r
    | cs => cs
  (ofDigits? base digits).filter (· < limit)

end RemoteAgent.Numeral
