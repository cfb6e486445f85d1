/-!
# How a fit is minimised and its errors estimated

The names under which a fit carries its optimizer and its error estimator. The algorithms themselves
are in the modules on minimisation and estimates.
-/
namespace ParameterScan

inductive Optimizer where
  /-- Damped least squares on the residuals. -/
  | levmar
  /-- A simplex that crawls downhill. -/
  | nelderMead
  /-- Simplex runs from random starts. -/
  | monteCarlo
  deriving Repr, DecidableEq

namespace Optimizer

def name : Optimizer → String
  | levmar => "levmar"
  | nelderMead => "neldermead"
  | monteCarlo => "moncar"

def ofName? : String → Option Optimizer
  | "levmar" => some levmar
  | "neldermead" => some nelderMead
  | "moncar" => some monteCarlo
  | _ => none

theorem ofName?_name (m : Optimizer) : ofName? m.name = some m := by
  cases m <;> rfl

/-- Whether the optimizer is trusted for confidence limits. -/
def suitsConfidence : Optimizer → Bool
  | levmar | nelderMead => true
  | monteCarlo => false

end Optimizer

inductive Estimator where
  /-- The inverse of the curvature at the current values. -/
  | covariance
  /-- A search for the rise of the statistic, the other parameters fitted again. -/
  | confidence
  deriving Repr, DecidableEq

namespace Estimator

def name : Estimator → String
  | covariance => "covariance"
  | confidence => "confidence"

def ofName? : String → Option Estimator
  | "covariance" => some covariance
  | "confidence" => some confidence
  | _ => none

theorem ofName?_name (e : Estimator) : ofName? e.name = some e := by
  cases e <;> rfl

end Estimator

end ParameterScan
