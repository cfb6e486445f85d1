import ParameterScan.Parameter

/-!
# Fits

What a scan asks of a fit: its parameters, which may be written, its statistic, the optimizer and
the error estimator in use, and four actions. A fit is a value. An action that changes it returns
the changed fit beside its outcome, so that the state after a failure is part of the answer.
-/
namespace ParameterScan

/-- The outcome of a minimisation: the statistic, the thawed values there, and what it took. -/
structure FitResult (α : Type) where
  stat : α
  values : List α
  evaluations : Nat
  method : Optimizer
  deriving Repr, DecidableEq

/-- Error bounds as offsets from the current values, one entry for each thawed parameter. A bound
that could not be determined is missing. -/
structure ErrorEstimate (α : Type) where
  method : Estimator
  names : List String
  values : List α
  lower : List (Option α)
  upper : List (Option α)
  deriving Repr, DecidableEq

/-- The place of the first entry with the given name. -/
def ErrorEstimate.index? {α : Type} (e : ErrorEstimate α) (name : String) : Option Nat :=
  e.names.findIdx? (· == name)

/-- A fitted model with its data, statistic and optimizer. -/
class Fit (φ : Type) (α : outParam Type) where
  modelName : φ → String
  parameters : φ → List (Parameter α)
  withParameters : φ → List (Parameter α) → φ
  statistic : φ → Statistic
  method : φ → Optimizer
  withMethod : φ → Optimizer → φ
  estimator : φ → Estimator
  withEstimator : φ → Estimator → φ
  calcStat : φ → Except (FitError α) α
  /-- Moves the thawed parameters to a minimum. With `reuse` the model is not started up and torn
  down around it. -/
  minimise : φ → (reuse : Bool) → φ × Except (FitError α) (FitResult α)
  estimateErrors : φ → φ × Except (FitError α) (ErrorEstimate α)
  startup : φ → φ
  teardown : φ → φ

namespace Fit

variable {φ α : Type} [Scalar α] [Fit φ α]

def thawedCount (fit : φ) : Nat := Parameters.thawedCount (parameters fit)

def thawedValues (fit : φ) : List α := Parameters.thawedValues (parameters fit)

def index? (fit : φ) (name : String) : Option Nat := Parameters.index? (parameters fit) name

/-- The parameter at a position. A position beyond the last one has a nameless parameter. -/
def parameter (fit : φ) (i : Nat) : Parameter α := (parameters fit).getD i default

/-- Changes the parameter at a position, if there is one. -/
def modifyParameter (fit : φ) (i : Nat) (f : Parameter α → Parameter α) : φ :=
  withParameters fit ((parameters fit).modify i f)

/-- Assigns the thawed parameters; those before a refused value stay assigned. -/
def assignThawed (fit : φ) (xs : List α) : φ × Except (FitError α) Unit :=
  let (ps, outcome) := Parameters.assignThawed (parameters fit) xs
  (withParameters fit ps, outcome)

def assign (fit : φ) (i : Nat) (x : α) : φ × Except (FitError α) Unit :=
  match (parameter fit i).assign x with
  | .ok p => (modifyParameter fit i fun _ => p, .ok ())
  | .error e => (fit, .error e)

end Fit

end ParameterScan
