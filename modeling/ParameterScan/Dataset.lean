import ParameterScan.Error

/-!
# Data

Observed values over one coordinate, with or without an error for each point. A dataset that is made
through `make` and `withErrors` has at least one point, as many values as coordinates, and errors,
if any, that are positive and finite, one for each value.
-/
namespace ParameterScan

structure Dataset (α : Type) where
  name : String
  x : List α
  y : List α
  errors : Option (List α) := none
  deriving Repr, DecidableEq

namespace Dataset

variable {α : Type} [Scalar α]

def make (name : String) (x y : List α) : Except (FitError α) (Dataset α) :=
  if x.isEmpty then .error .emptyData
  else if x.length ≠ y.length then
    .error (.dataShape ("x has " ++ toString x.length ++ " points, y has " ++ toString y.length))
  else .ok { name, x, y }

/-- An error has to be positive and finite. -/
def validError (e : α) : Bool := Scalar.isFinite e && decide (0 < e)

def withErrors (d : Dataset α) (errors : List α) : Except (FitError α) (Dataset α) :=
  if errors.length ≠ d.y.length then
    .error (.dataShape ("staterror has " ++ toString errors.length ++ " points, y has "
      ++ toString d.y.length))
  else if errors.any fun e => !validError e then
    .error (.dataShape "staterror entries must be positive and finite")
  else .ok { d with errors := some errors }

end Dataset

end ParameterScan
