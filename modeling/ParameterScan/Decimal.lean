/-!
# Decimal numerals

A numeral is a sign, a whole number and a power of ten. The file says how a numeral is laid out with
a point in the middle of its digits, and how a ratio of whole numbers is rounded to a given place:
to the nearest whole number of units, of two equally near to the one that `Tie` asks for
(`roundRatio`).
-/
namespace ParameterScan

/-- Which of two equally near whole numbers is taken: the even one, or the one farther from zero. -/
inductive Tie where
  | toEven
  | toAway
  deriving Repr, DecidableEq

/-- The number `± significand · 10 ^ exponent`. -/
structure Decimal where
  negative : Bool
  significand : Nat
  exponent : Int
  deriving Repr, DecidableEq

namespace Decimal

/-- The whole number nearest to `num / den`. -/
def roundRatio (tie : Tie) (num den : Nat) : Nat :=
  let whole := num / den
  let twice := 2 * (num % den)
  if twice < den then whole
  else if den < twice then whole + 1
  else
    match tie with
    | .toEven => whole + whole % 2
    | .toAway => whole + 1

/-- The ratio `num / den` in units of `10 ^ exponent`. -/
def inUnits (num den : Nat) (exponent : Int) : Nat × Nat :=
  (num * Nat.pow 10 (-exponent).toNat, den * Nat.pow 10 exponent.toNat)

/-- The number of digits of a whole number. Zero has one digit. -/
def digitCount (n : Nat) : Nat :=
  (toString n).length

/-- The place of the first digit of a positive ratio: the largest `e` with `10 ^ e ≤ num / den`. -/
def leadingPlace (num den : Nat) : Int :=
  if den ≤ num then (digitCount (num / den) : Int) - 1
  else
    let places := digitCount (den / num)
    if den ≤ num * Nat.pow 10 (places - 1) then 1 - (places : Int) else -(places : Int)

/-- The digits of a number of units of `10⁻ᵖ`, with a point before the last `p` of them. -/
def withPoint (units p : Nat) : String :=
  let digits := toString units
  let padded := String.join (List.replicate (p + 1 - digits.length) "0") ++ digits
  let cut := padded.length - p
  if p = 0 then digits else (padded.take cut).toString ++ "." ++ (padded.drop cut).toString

def signText (negative : Bool) : String :=
  if negative then "-" else ""

/-- Positional notation without an exponent, and without a point when the value is whole. -/
def positional (d : Decimal) : String :=
  signText d.negative ++
    withPoint (d.significand * Nat.pow 10 d.exponent.toNat) (-d.exponent).toNat

/-- The significand, then the power of ten after the letter `e`. -/
def scientific (d : Decimal) : String :=
  signText d.negative ++ toString d.significand ++ "e" ++ toString d.exponent

/-- The same value with no trailing zero in its significand. Fuel bounds the zeros removed. -/
def trim : Nat → Decimal → Decimal
  | 0, d => d
  | fuel + 1, d =>
      if d.significand ≠ 0 ∧ d.significand % 10 = 0 then
        trim fuel { d with significand := d.significand / 10, exponent := d.exponent + 1 }
      else d

end Decimal

end ParameterScan
