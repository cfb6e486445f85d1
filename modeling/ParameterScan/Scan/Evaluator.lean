import ParameterScan.Grid
import ParameterScan.Scan.Hold
import ParameterScan.Scan.Workers

/-!
# The statistic at a point

An evaluator takes a fit in its scanning state to a point of a grid. It assigns the targets and
reads the statistic, or fits the other parameters again when a projection has some that are free.
The state of the fit after a failure is part of the answer; a scan works on copies.
-/
namespace ParameterScan

variable {φ α : Type} [Scalar α] [Fit φ α] {n : Nat}

structure Evaluator (α : Type) (n : Nat) where
  grid : Grid α n
  targets : Vector Nat n
  /-- Whether the other parameters are fitted again at each point. -/
  refits : Bool

namespace Evaluator

/-- The evaluator of a grid, given how many parameters were thawed before any was frozen. -/
def make (grid : Grid α n) (targets : Vector Nat n) (mode : ScanMode) (thawedBefore : Nat) :
    Evaluator α n :=
  ⟨grid, targets, mode = .projection && n < thawedBefore⟩

/-- Assigns values to parameters one after the other, up to the first refused one. -/
def assignAll (fit : φ) : List (Nat × α) → φ × Except (FitError α) Unit
  | [] => (fit, .ok ())
  | (i, x) :: rest =>
      match Fit.assign fit i x with
      | (fit, .ok ()) => assignAll fit rest
      | (fit, .error e) => (fit, .error e)

/-- The statistic with the parameters as they are, or at the minimum over the thawed ones. -/
def read (e : Evaluator α n) (fit : φ) : φ × Except (FitError α) α :=
  if e.refits then
    let (fit, outcome) := Fit.minimise fit true
    (fit, outcome.map FitResult.stat)
  else (fit, Fit.calcStat fit)

def eval (e : Evaluator α n) (fit : φ) (p : Vector α n) : φ × Except (FitError α) α :=
  match assignAll fit (e.targets.toList.zip (e.grid.toLinear p).toList) with
  | (fit, .ok ()) => e.read fit
  | (fit, .error error) => (fit, .error error)

/-- The statistic at several points, each on a fresh copy of the fit. -/
def evalAll (e : Evaluator α n) (fit : φ) (ps : List (Vector α n)) (workers : Option Nat) :
    Except (FitError α) (List α) :=
  parallelMap fit ps workers e.eval

end Evaluator

end ParameterScan
