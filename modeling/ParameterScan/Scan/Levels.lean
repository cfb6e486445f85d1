import ParameterScan.Error

/-!
# Contour levels

For two parameters estimated together, a multiple of the standard deviation stands for a rise of the
statistic. Levels are given outright, or follow from a list of such multiples.
-/
namespace ParameterScan

/-- A value for all axes, or one for each. -/
inductive PerAxis (β : Type) where
  | single (x : β)
  | each (xs : List β)
  deriving Repr, DecidableEq

namespace PerAxis

variable {β : Type}

def pair (a b : β) : PerAxis β := .each [a, b]

def single? : PerAxis β → Option β
  | single x => some x
  | each _ => none

def list? : PerAxis β → Option (List β)
  | single _ => none
  | each xs => some xs

/-- The list when it has exactly `n` entries. -/
def vector? (n : Nat) : PerAxis β → Option (Vector β n)
  | single _ => none
  | each xs => if h : xs.toArray.size = n then some ⟨xs.toArray, h⟩ else none

end PerAxis

namespace Levels

variable {α : Type} [Scalar α]

def sqrtTwo : α := 1.4142135623730951

/-- The rise of the statistic that encloses a multiple of the standard deviation in two
parameters. -/
def rise (sigma : α) : α := -2 * Scalar.ln (Scalar.erfc (sigma / sqrtTwo))

def ofSigma (stat : α) : Option (PerAxis α) → Except (ScanError α) (List α)
  | none => .error (.sigmaSpec "no sigma values given")
  | some (.single _) => .error (.sigmaSpec "a scalar was given")
  | some (.each []) => .error (.sigmaSpec "the list is empty")
  | some (.each sigmas) => .ok (sigmas.map fun s => stat + rise s)

/-- Levels given outright come before those of the multiples. -/
def contour (stat : α) (levels : Option (List α)) (sigma : Option (PerAxis α)) :
    Except (ScanError α) (List α) :=
  match levels with
  | some levels => .ok levels
  | none => ofSigma stat sigma

end Levels

end ParameterScan
