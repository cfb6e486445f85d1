import ParameterScan.Scalar

/-!
# Goodness-of-fit statistics

A statistic turns data and model values into one number to be minimised. Chi-square and least
squares are sums of squares of a residual vector. The two Poisson statistics have no such vector;
they are infinite where a positive count meets a model that is not positive, and `cstat` differs
from `cash` by a term in the data alone.

Lists of different lengths are compared as far as the shorter one goes.
-/
namespace ParameterScan

inductive Statistic where
  /-- Squares of the residuals in units of their errors. -/
  | chi2
  /-- Squares of the plain residuals. -/
  | leastSquares
  /-- Twice the negative Poisson likelihood, without the factorials. -/
  | cash
  /-- The Poisson likelihood measured from a perfect model. -/
  | cstat
  deriving Repr, DecidableEq

namespace Statistic

def name : Statistic → String
  | chi2 => "chi2"
  | leastSquares => "leastsq"
  | cash => "cash"
  | cstat => "cstat"

def ofName? : String → Option Statistic
  | "chi2" => some chi2
  | "leastsq" => some leastSquares
  | "cash" => some cash
  | "cstat" => some cstat
  | _ => none

theorem ofName?_name (s : Statistic) : ofName? s.name = some s := by
  cases s <;> rfl

/-- A likelihood, to be minimised by the simplex and not by least squares. -/
def isLikelihood : Statistic → Bool
  | cash | cstat => true
  | chi2 | leastSquares => false

/-- Whether the statistic estimates an error for each data point. -/
def hasErrors : Statistic → Bool
  | chi2 => true
  | leastSquares | cash | cstat => false

/-- Whether confidence scans mean anything with this statistic. -/
def supportsConfidence : Statistic → Bool
  | leastSquares => false
  | chi2 | cash | cstat => true

variable {α : Type} [Scalar α]

/-- Errors from the data alone: the root of each magnitude, at least one. -/
def errorsOf (data : List α) : List α :=
  data.map fun y => Scalar.sqrt (Scalar.larger (Scalar.abs y) 1)

/-- The differences of data and model in units of the errors. -/
def scaledDifferences (data model errors : List α) : List α :=
  List.zipWith (fun d e => d / e) (List.zipWith (· - ·) data model) errors

/-- The vector whose squares sum to the statistic, for the statistics that have one. Without given
errors chi-square takes those of the data. -/
def residuals (data model : List α) (errors : Option (List α)) : Statistic → Option (List α)
  | chi2 => some (scaledDifferences data model (errors.getD (errorsOf data)))
  | leastSquares => some (List.zipWith (· - ·) data model)
  | cash | cstat => none

/-- The least model value that is put into a logarithm. -/
def leastModel : α := 1e-300

/-- A positive count where the model is not positive. -/
def impossible (d m : α) : Bool :=
  decide (m ≤ 0) && decide (0 < d)

/-- The contribution of one point to `cash`, added to the sum so far. -/
def cashTerm (total d m : α) : α :=
  total + (m - d * Scalar.ln (Scalar.larger m leastModel))

/-- The contribution of one point to `cstat`, added to the sum so far. A point without counts has
no logarithm. -/
def cstatTerm (total d m : α) : α :=
  let shifted := total + (m - d)
  if 0 < d then shifted + d * Scalar.ln (d / Scalar.larger m leastModel) else shifted

/-- Adds up the contributions of all points, or finds an impossible one. -/
def accumulate (term : α → α → α → α) : α → List (α × α) → Option α
  | total, [] => some total
  | total, (d, m) :: rest =>
      if impossible d m then none else accumulate term (term total d m) rest

/-- Twice the sum of the contributions; nothing stands for infinity. -/
def likelihood? (term : α → α → α → α) (data model : List α) : Option α :=
  (accumulate term 0 (data.zip model)).map (2 * ·)

def value (data model : List α) (errors : Option (List α)) : Statistic → α
  | chi2 => Scalar.sumSq (scaledDifferences data model (errors.getD (errorsOf data)))
  | leastSquares => Scalar.sumSq (List.zipWith (· - ·) data model)
  | cash => (likelihood? cashTerm data model).getD Scalar.infinity
  | cstat => (likelihood? cstatTerm data model).getD Scalar.infinity

end Statistic

end ParameterScan
