import RemoteAgent.Decimal.Basic

/-!
# Binary floating-point numbers of 64 bits

Values have 53 significant bits and an exponent from -1074 to 971. Rounding goes to the nearest
value, a tie to the even one.
-/

namespace RemoteAgent

/-- The quotient of two numbers rounded to the nearest whole number, a half to the even one. -/
def roundQuotient (num den : Nat) : Nat :=
  let q := num / den
  let twice := 2 * (num % den)
  if twice < den then q else if den < twice then q + 1 else q + q % 2

inductive Binary64 where
  /-- The number `mantissa * 2 ^ exponent`, negated if `negative`. -/
  | finite (negative : Bool) (mantissa : Nat) (exponent : Int)
  | infinite (negative : Bool)
  | nan
  deriving DecidableEq, Repr

namespace Binary64

def leastExponent : Int := -1074

def greatestExponent : Int := 971

/-- The least mantissa that has all 53 bits. -/
def leastNormal : Nat := 0x10000000000000

/-- Multiplies a quotient by a power of two: its new numerator and denominator. -/
def scale (num den : Nat) (e : Int) : Nat × Nat :=
  if 0 ≤ e then (num * Nat.pow 2 e.toNat, den) else (num, den * Nat.pow 2 (-e).toNat)

/-- The greatest power of two that is not above a positive quotient. -/
def floorLog2 (num den : Nat) : Int :=
  let e : Int := (num.log2 : Int) - den.log2
  let (n, d) := scale num den (-e)
  if n < d then e - 1 else e

/-- The value nearest to a quotient. -/
def ofQuotient (negative : Bool) (num den : Nat) : Binary64 :=
  if num = 0 then .finite negative 0 leastExponent
  else
    let e := max (floorLog2 num den - 52) leastExponent
    let (n, d) := scale num den (-e)
    let m := roundQuotient n d
    let (m, e) := if m = 2 * leastNormal then (leastNormal, e + 1) else (m, e)
    if greatestExponent < e then .infinite negative else .finite negative m e

/-- The value nearest to a decimal. Exponents beyond the range need no arithmetic: a positive whole
number has at most a third as many decimal digits as it has bits, and one more. -/
def ofDecimal (d : Decimal) : Binary64 :=
  if d.coefficient = 0 then .finite d.negative 0 leastExponent
  else if 310 < d.exponent then .infinite d.negative
  else if d.exponent + (d.coefficient.log2 / 3 + 1 : Nat) < -330 then
    .finite d.negative 0 leastExponent
  else if 0 ≤ d.exponent then ofQuotient d.negative (d.coefficient * Nat.pow 10 d.exponent.toNat) 1
  else ofQuotient d.negative d.coefficient (Nat.pow 10 (-d.exponent).toNat)

/-- The words for values that are not finite, in any case. -/
def ofWord? (negative : Bool) (cs : List Char) : Option Binary64 :=
  match String.ofList (cs.map Char.toLower) with
  | "inf" | "infinity" => some (.infinite negative)
  | "nan" => some .nan
  | _ => none

/-- Reads a decimal or a word, with an optional sign. -/
def ofText? (cs : List Char) : Option Binary64 :=
  let word := match cs with
    | '-' :: r => ofWord? true r
    | '+' :: r => ofWord? false r
    | r => ofWord? false r
  word.or ((Decimal.ofText? cs).map ofDecimal)

end Binary64

end RemoteAgent
