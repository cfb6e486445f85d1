import ParameterScan.Decimal

/-!
# Doubles as decimals

A finite double is a whole number times a power of two, so its value is a ratio of whole numbers and
every rounding here is exact. `shortest` gives the decimal with the fewest digits among those that
round to the double, the nearest of them to its value; `rounded` gives the value at a given place.
Two decimals can be equally near: texts for a reader and JSON settle that in different ways.
-/
namespace ParameterScan

/-- The value `± mantissa · 2 ^ exponent` of a finite double. -/
structure Dyadic where
  negative : Bool
  mantissa : Nat
  exponent : Int
  deriving Repr, DecidableEq

namespace Dyadic

/-- The sign, the mantissa with its hidden bit, and the exponent, read off the 64 bits. -/
def ofBits (bits : Nat) : Dyadic :=
  let negative := bits / Nat.pow 2 63 % 2 == 1
  let biased := bits / Nat.pow 2 52 % Nat.pow 2 11
  let fraction := bits % Nat.pow 2 52
  if biased = 0 then ⟨negative, fraction, -1074⟩
  else ⟨negative, Nat.pow 2 52 + fraction, (biased : Int) - 1075⟩

def ofFloat (x : Float) : Dyadic :=
  ofBits x.toBits.toNat

def ratio (d : Dyadic) : Nat × Nat :=
  (d.mantissa * Nat.pow 2 d.exponent.toNat, Nat.pow 2 (-d.exponent).toNat)

/-- The decimal nearest to the value whose last digit stands for `10 ^ place`. -/
def rounded (tie : Tie) (d : Dyadic) (place : Int) : Decimal :=
  let (num, den) := d.ratio
  let (n, m) := Decimal.inUnits num den place
  ⟨d.negative, Decimal.roundRatio tie n m, place⟩

/-- Whether `units · 10 ^ place` rounds to the double. The bounds lie half way to the neighbouring
doubles, a quarter of a unit down from a power of two; they belong to the double when its mantissa
is even. -/
def reads (d : Dyadic) (units : Nat) (place : Int) : Bool :=
  let quarter : Dyadic := ⟨false, 1, d.exponent - 2⟩
  let (unit, den) := quarter.ratio
  let below := if d.mantissa = Nat.pow 2 52 ∧ d.exponent ≠ -1074 then 1 else 2
  let low := (4 * d.mantissa - below) * unit * Nat.pow 10 (-place).toNat
  let high := (4 * d.mantissa + 2) * unit * Nat.pow 10 (-place).toNat
  let value := units * Nat.pow 10 place.toNat * den
  if d.mantissa % 2 = 0 then low ≤ value ∧ value ≤ high else low < value ∧ value < high

/-- The decimal of the value with its first digit at `top` and `count` digits: the nearer of the two
neighbours on that grid when it rounds to the double, else the other one when that does. -/
def atDigits (tie : Tie) (d : Dyadic) (top : Int) (count : Nat) : Option Decimal :=
  let place := top + 1 - (count : Int)
  let near := d.rounded tie place
  if d.reads near.significand place then some near
  else
    let (num, den) := d.ratio
    let (n, m) := Decimal.inUnits num den place
    let other := if near.significand = n / m then n / m + 1 else n / m
    if d.reads other place then some { near with significand := other } else none

/-- Tries one digit, then two, and so on. Seventeen digits always suffice. -/
def search (tie : Tie) (d : Dyadic) (top : Int) : (fuel count : Nat) → Decimal
  | 0, count => d.rounded tie (top + 1 - (count : Int))
  | fuel + 1, count => (d.atDigits tie top count).getD (d.search tie top fuel (count + 1))

/-- The fewest digits that read back as the double, and the nearest such decimal. -/
def shortest (tie : Tie) (d : Dyadic) : Decimal :=
  if d.mantissa = 0 then ⟨d.negative, 0, 0⟩
  else
    let (num, den) := d.ratio
    Decimal.trim 17 (d.search tie (Decimal.leadingPlace num den) 16 1)

end Dyadic

/-- Whether some finite double is nearest to the decimal. The bound lies half way from the largest
double to the next power of two. -/
def Decimal.hasDouble (d : Decimal) : Bool :=
  d.significand * Nat.pow 10 d.exponent.toNat <
    (Nat.pow 2 54 - 1) * Nat.pow 2 970 * Nat.pow 10 (-d.exponent).toNat

def nonFiniteText (x : Float) : String :=
  if x.isNaN then "NaN" else if 0 < x then "inf" else "-inf"

/-- The shortest decimal in positional notation, the one farther from zero of two equally near. -/
def plainText (x : Float) : String :=
  if x.isFinite then ((Dyadic.ofFloat x).shortest .toAway).positional else nonFiniteText x

/-- A fixed number of places after the point, the even digit of two equally near. -/
def fixedText (places : Nat) (x : Float) : String :=
  if x.isFinite then
    let d := (Dyadic.ofFloat x).rounded .toEven (-(places : Int))
    Decimal.signText d.negative ++ Decimal.withPoint d.significand places
  else nonFiniteText x

/-- The value to `digits` significant digits, or to as many places after the point when its
magnitude is below one, the even digit of two equally near. -/
def Dyadic.toDigits (d : Dyadic) (digits : Nat) : Decimal :=
  let (num, den) := d.ratio
  if num < den then d.rounded .toEven (-(digits : Int))
  else d.rounded .toEven (Decimal.leadingPlace num den + 1 - (digits : Int))

end ParameterScan
