import ParameterScan.Decimal.Double

/-!
# JSON values

A value keeps what the text says: the fields of an object stay in order, a repeated name stays
repeated, and a number keeps its digits. What a number means is asked afterwards, as a count
(`Numeral.toCount?`) or as a double (`Numeral.toDouble?`).

A double is read from a significand of at most 64 bits, multiplied or divided by powers of ten; the
result is within a few units of the last place and not always the nearest double. A value beyond the
largest double has no reading.
-/
namespace ParameterScan

namespace Json

/-- The digits of a number, in the parts in which they are written. -/
structure Numeral where
  negative : Bool
  whole : List Char
  fraction : Option (List Char)
  exponent : Option Int
  deriving Repr, DecidableEq

/-- The number with the given digits in front of its point and nothing else. -/
def Numeral.ofNat (n : Nat) : Numeral :=
  ⟨false, (toString n).toList, none, none⟩

/-- The digits of a decimal, always with a fraction or an exponent, so that it is never taken for a
count. Decimals of up to seventeen places are written out. -/
def Numeral.ofDecimal (d : Decimal) : Numeral :=
  if 0 ≤ d.exponent then
    if d.exponent ≤ 17 then
      ⟨d.negative, (toString (d.significand * Nat.pow 10 d.exponent.toNat)).toList, some ['0'],
        none⟩
    else ⟨d.negative, (toString d.significand).toList, none, some d.exponent⟩
  else
    let places := (-d.exponent).toNat
    if places ≤ 17 then
      let digits := toString d.significand
      let padded := List.replicate (places + 1 - digits.length) '0' ++ digits.toList
      ⟨d.negative, padded.take (padded.length - places),
        some (padded.drop (padded.length - places)), none⟩
    else ⟨d.negative, (toString d.significand).toList, none, some d.exponent⟩

/-- One more than the largest number of 64 bits. -/
def wordBound : Nat := Nat.pow 2 64

def digitValue (c : Char) : Nat := c.toNat - '0'.toNat

/-- Appends digits to a significand while it stays below `wordBound`. Returns the significand and
the number of digits left over. -/
def appendDigits (significand : Nat) : List Char → Nat × Nat
  | [] => (significand, 0)
  | c :: cs =>
      let next := significand * 10 + digitValue c
      if next < wordBound then appendDigits next cs else (significand, cs.length + 1)

/-- Multiplies by a power of ten of at most 308, or divides by as many such powers as it takes. -/
def scaleByTen : (fuel : Nat) → Float → Int → Option Float
  | 0, x, _ => some x
  | fuel + 1, x, e =>
      if 0 ≤ e ∧ e ≤ 308 then
        let y := x * Float.ofScientific 1 false e.toNat
        if y.isFinite then some y else none
      else if -308 ≤ e ∧ e < 0 then some (x / Float.ofScientific 1 false (-e).toNat)
      else if x == 0 then some x
      else if 0 < e then none
      else scaleByTen fuel (x / 1e308) (e + 308)

/-- A count is written with digits alone, and fits 64 bits. -/
def Numeral.toCount? (n : Numeral) : Option Nat :=
  match n.negative, n.fraction, n.exponent, appendDigits 0 n.whole with
  | false, none, none, (value, 0) => some value
  | _, _, _, _ => none

def Numeral.toDouble? (n : Numeral) : Option Float :=
  let (whole, dropped) := appendDigits 0 n.whole
  let digits := n.fraction.getD []
  let (significand, cut) := appendDigits whole digits
  let places := (digits.length - cut : Int)
  (scaleByTen 5 (Float.ofNat significand) (n.exponent.getD 0 + dropped - places)).map
    fun x => if n.negative then -x else x

end Json

/-- A JSON value. A value is unreadable when it keeps to the grammar and its text names no
characters: a string with half of a surrogate pair, or an object with such a name. -/
inductive Json where
  | null
  | bool (value : Bool)
  | number (digits : Json.Numeral)
  | string (text : String)
  | array (items : List Json)
  | object (fields : List (String × Json))
  | unreadable
  deriving Repr

namespace Json

def nat (n : Nat) : Json := .number (.ofNat n)

/-- A finite double in its shortest digits, the even one of two equally near. Text stands for the
numbers that JSON lacks. -/
def ofDouble (nonFinite : Float → Json) (x : Float) : Json :=
  if x.isFinite then .number (.ofDecimal ((Dyadic.ofFloat x).shortest .toEven)) else nonFinite x

end Json

end ParameterScan
