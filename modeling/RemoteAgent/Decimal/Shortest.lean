import RemoteAgent.Decimal.Binary64

/-!
# Shortest decimals

The shortest decimal that rounds to a given binary floating-point number, and of several such the
nearest. A number from 1e-5 up to 1e16 is written with a point, any other with an exponent.
-/

namespace RemoteAgent.Binary64

/-- The numbers that round to `mantissa * 2 ^ exponent`, as multiples of a quarter of its unit: the
lower and the upper end, which belong to them when the mantissa is even. -/
def roundingEnds (mantissa : Nat) (exponent : Int) : Nat × Nat :=
  let low := if mantissa = leastNormal ∧ leastExponent < exponent then 1 else 2
  (4 * mantissa - low, 4 * mantissa + 2)

/-- The number of digits before the point of a positive quotient, less one. -/
def floorLog10 (num den : Nat) : Int :=
  let guess : Int := floorLog2 num den * 30103 / 100000
  let atLeast (k : Int) : Bool :=
    if 0 ≤ k then den * Nat.pow 10 k.toNat ≤ num else den ≤ num * Nat.pow 10 (-k).toNat
  ([guess + 1, guess, guess - 1].find? atLeast).getD (guess - 2)

/-- The shortest decimal that rounds to `mantissa * 2 ^ exponent`, as coefficient and power of
ten. -/
def shortest (mantissa : Nat) (exponent : Int) : Nat × Int :=
  let (low, high) := roundingEnds mantissa exponent
  let (num, den) := scale mantissa 1 exponent
  let top := floorLog10 num den
  let inside (c : Nat) (k : Int) : Bool :=
    -- Both sides are multiplied by the denominators of the quarter unit and of the power of ten.
    let (a, b) := if 0 ≤ k then (c * Nat.pow 10 k.toNat, 1) else (c, Nat.pow 10 (-k).toNat)
    let (unit, parts) := scale 1 1 (exponent - 2)
    let here := a * parts
    let lower := low * unit * b
    let upper := high * unit * b
    if mantissa % 2 = 0 then lower ≤ here && here ≤ upper else lower < here && here < upper
  let onGrid (n : Nat) : Option (Nat × Int) :=
    let k := top - n
    let (a, b) :=
      if 0 ≤ k then (num, den * Nat.pow 10 k.toNat) else (num * Nat.pow 10 (-k).toNat, den)
    let nearest := roundQuotient a b
    let other := if a / b = nearest then nearest + 1 else nearest - 1
    if inside nearest k then some (nearest, k)
    else if inside other k then some (other, k)
    else none
  ((List.range 17).findSome? onGrid).getD (0, 0)

/-- Takes zeros off the end of a coefficient. -/
def stripZeros : Nat → Nat → Int → Nat × Int
  | 0, c, k => (c, k)
  | fuel + 1, c, k => if c % 10 = 0 ∧ c ≠ 0 then stripZeros fuel (c / 10) (k + 1) else (c, k)

/-- The digits of a decimal with a point among them or an exponent after them. -/
def layout (coefficient : Nat) (power : Int) : String :=
  let digits := Nat.toDigits 10 coefficient
  let length : Int := digits.length
  let point := length + power
  if 0 ≤ power ∧ point ≤ 16 then
    String.ofList (digits ++ List.replicate power.toNat '0') ++ ".0"
  else if 0 < point ∧ point ≤ 16 then
    String.ofList (digits.take point.toNat ++ '.' :: digits.drop point.toNat)
  else if -5 < point ∧ point ≤ 0 then
    "0." ++ String.ofList (List.replicate (-point).toNat '0' ++ digits)
  else
    let fraction := if length = 1 then [] else '.' :: digits.drop 1
    String.ofList (digits.take 1 ++ fraction) ++ "e" ++ toString (point - 1)

def text : Binary64 → String
  | .nan => "NaN"
  | .infinite negative => if negative then "-inf" else "inf"
  | .finite negative mantissa exponent =>
    let digits :=
      if mantissa = 0 then "0.0"
      else
        let (c, k) := shortest mantissa exponent
        let (c, k) := stripZeros 17 c k
        layout c k
    if negative then "-" ++ digits else digits

end RemoteAgent.Binary64
