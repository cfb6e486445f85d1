/-!
# The numbers of a fit

Every number in a fit, in a grid or in a scan is an element of a type `α` with the operations of
`Scalar`. The algorithms are written once over this class, in a fixed order of operations: run on
doubles they give the program's answers, and the same definitions can be read over the reals.

The class asks for no law. A result that needs one (an order on the numbers that are not `NaN`,
field arithmetic) takes it as a hypothesis; a result that needs none holds for rounded arithmetic
as it is.
-/
namespace ParameterScan

/-- The arithmetic, the comparisons and the elementary functions that a fit uses. -/
class Scalar (α : Type) extends Add α, Sub α, Mul α, Div α, Neg α, LT α, LE α, BEq α where
  decLt : DecidableLT α
  decLe : DecidableLE α
  ofNat : Nat → α
  /-- The number `m · 10⁻ᵉ`. -/
  ofDecimal : (m e : Nat) → α
  /-- The integer part of a number from zero up. -/
  toNat : α → Nat
  isNaN : α → Bool
  isFinite : α → Bool
  infinity : α
  abs : α → α
  sqrt : α → α
  floor : α → α
  ln : α → α
  log10 : α → α
  tenTo : α → α
  erfc : α → α

namespace Scalar

variable {α : Type} [Scalar α]

instance : DecidableLT α := decLt

instance : DecidableLE α := decLe

instance (priority := low) (n : Nat) : OfNat α n := ⟨ofNat n⟩

instance (priority := low) : OfScientific α :=
  ⟨fun m negative e => if negative then ofDecimal m e else ofNat (m * Nat.pow 10 e)⟩

instance (priority := low) : Inhabited α := ⟨ofNat 0⟩

/-- The larger of two numbers. A `NaN` gives way to the other one, and of two equal numbers the
second is kept: a zero compared with a zero takes the sign of the second. Which of two zeros is the
larger is left open where the program gets its numbers at run time; keeping the second is a choice
made here, as runs of the program show it. A value that is a zero moves to the other zero at its
limit by this choice alone, and so does every condition that a search or a scan has for it. -/
def larger (a b : α) : α :=
  if isNaN b || decide (b < a) then a else b

/-- The smaller of two numbers, with the conventions of `larger`. -/
def smaller (a b : α) : α :=
  if isNaN b || decide (a < b) then a else b

/-- The number moved into `[lower, upper]`. The upper end wins when the ends are out of order. -/
def clamp (lower upper x : α) : α :=
  smaller (larger x lower) upper

/-- The sum of a list from the left. It starts at negative zero, the neutral element of rounded
addition: the empty sum is negative zero, and no sum of one term changes it. -/
def sum (xs : List α) : α :=
  xs.foldl (· + ·) (-0)

def sumSq (xs : List α) : α :=
  sum (xs.map fun x => x * x)

/-- The power `2⁻ⁿ`, exact in binary arithmetic. -/
def halfPow (n : Nat) : α :=
  1 / ofNat (Nat.pow 2 n)

/-- The sign of a number as `1` or `-1`; zero counts as positive. -/
def sign (x : α) : α :=
  if 0 ≤ x then 1 else -1

end Scalar

end ParameterScan
