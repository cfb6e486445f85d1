import ParameterScan.Scalar

/-!
# Searching for a minimum

What the optimizers have in common: their tuning, the box that a search has to stay in, the record
of the points at which the function was evaluated, and the outcome. The record grows by one point
with each evaluation and is never read by a search; it is there to say what a search did.
-/
namespace ParameterScan

/-- Tuning shared by the optimizers. -/
structure SearchConfig (α : Type) where
  /-- Relative tolerance on the value of the function. -/
  tolerance : α
  /-- The number of evaluations after which a search ends; by default it grows with the number of
  coordinates. -/
  budget : Option Nat := none
  seed : UInt64 := 0x5eed
  restarts : Nat := 8

namespace SearchConfig

variable {α : Type} [Scalar α]

instance : Inhabited (SearchConfig α) := ⟨{ tolerance := 1e-10 }⟩

def budgetFor (cfg : SearchConfig α) (n perCoordinate : Nat) : Nat :=
  cfg.budget.getD (perCoordinate * (n + 1))

end SearchConfig

/-- A range for each coordinate. -/
structure Box (α : Type) where
  lower : List α
  upper : List α
  deriving Repr, DecidableEq

namespace Box

variable {α : Type} [Scalar α]

def clampEach : List α → List α → List α → List α
  | l :: ls, u :: us, x :: xs => Scalar.clamp l u x :: clampEach ls us xs
  | _, _, xs => xs

/-- Moves each coordinate into its range. Coordinates without a range stay. -/
def clamp (b : Box α) (x : List α) : List α := clampEach b.lower b.upper x

end Box

/-- The evaluations of a search: their number and the points, oldest first. -/
structure Trail (α : Type) where
  count : Nat := 0
  points : Array (List α) := #[]

namespace Trail

variable {α : Type}

def empty : Trail α := {}

def visit (t : Trail α) (x : List α) : Trail α := ⟨t.count + 1, t.points.push x⟩

/-- The trail after evaluations that are not counted. -/
def glance (t : Trail α) (xs : List (List α)) : Trail α := { t with points := t.points ++ xs }

def append (t u : Trail α) : Trail α := ⟨t.count + u.count, t.points ++ u.points⟩

end Trail

structure Minimum (α : Type) where
  point : List α
  value : α
  converged : Bool
  trail : Trail α

def Minimum.evaluations {α : Type} (m : Minimum α) : Nat := m.trail.count

/-- Whether two values agree to a relative tolerance, or to the rounding of one. -/
def closeTo {α : Type} [Scalar α] (tolerance a b : α) : Bool :=
  decide (Scalar.abs (a - b) ≤ tolerance * (Scalar.abs a + Scalar.abs b) + Scalar.halfPow 52)

end ParameterScan
