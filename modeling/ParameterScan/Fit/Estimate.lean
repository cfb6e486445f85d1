import ParameterScan.CurveFit
import ParameterScan.Fit.Crossing
import ParameterScan.Linear.Inverse

/-!
# Error estimates of a curve fit

Covariance: twice the inverse of the Hessian of the statistic at the current values, its deviations
given as symmetric bounds. Confidence: for each thawed parameter the offsets at which the statistic,
minimised over the other parameters, has risen by one. Both leave the fit as it is.
-/
namespace ParameterScan.CurveFit

variable {α : Type} [Scalar α]

def thawedNames (fit : CurveFit α) : List String :=
  (Parameters.thawed fit.parameters).map Parameter.name

/-- The statistic with the given thawed values, when it is finite. -/
def finiteStatAt (fit : CurveFit α) (errors : Option (List α)) (thawed : List α) : Option α :=
  let v := fit.statAt errors thawed
  if Scalar.isFinite v then some v else none

/-- The standard deviations of the thawed parameters by a given inversion, missing where the Hessian
has no inverse or no positive variance. -/
def deviationsWith (inverse : {n : Nat} → Mat α n n → Option (Mat α n n)) (fit : CurveFit α) :
    Except (FitError α) (List (Option α)) :=
  let x0 := Parameters.thawedValues fit.parameters
  if x0.isEmpty then .error .noThawedParameters
  else
    let hessian := Derivative.hessian? (fit.finiteStatAt fit.statErrors) x0
    match hessian.bind fun h => inverse (h.map (· * 0.5)) with
    | some cov => .ok (Derivative.deviations cov)
    | none => .ok (x0.map fun _ => none)

def deviations (fit : CurveFit α) : Except (FitError α) (List (Option α)) :=
  fit.deviationsWith Linear.inverse?

def symmetricEstimate (fit : CurveFit α) (sigmas : List (Option α)) : ErrorEstimate α where
  method := .covariance
  names := fit.thawedNames
  values := Parameters.thawedValues fit.parameters
  lower := sigmas.map (Option.map fun s => -s)
  upper := sigmas

def covarianceErrors (fit : CurveFit α) : Except (FitError α) (ErrorEstimate α) :=
  fit.deviations.map fit.symmetricEstimate

def pinned (fit : CurveFit α) (i : Nat) (x : α) : CurveFit α :=
  fit.withParameters (fit.parameters.modify i fun p => { p with value := x, frozen := true })

def profile (fit : CurveFit α) (i : Nat) (x : α) : Except (FitError α) α :=
  let fit := fit.pinned i x
  if Parameters.thawedCount fit.parameters = 0 then fit.calcStat
  else fit.minimum.map Minimum.value

/-- The first step of a search: the standard deviation, or a tenth of the magnitude. -/
def searchStep (x : α) : Option α → α
  | some s => s
  | none => 0.1 * Scalar.larger (Scalar.abs x) 1

def confidenceBounds (fit : CurveFit α) (level : α) (i : Nat) (p : Parameter α)
    (sigma : Option α) : Except (FitError α) (Option α × Option α) := do
  let step := searchStep p.value sigma
  let lower ← Crossing.offset? (fit.profile i) p.value (-1) step p.lower level
  let upper ← Crossing.offset? (fit.profile i) p.value 1 step p.upper level
  return (lower, upper)

def thawedPlaces (fit : CurveFit α) : List (Parameter α × Nat) :=
  fit.parameters.zipIdx.filter fun (p, _) => !p.frozen

def confidenceErrors (fit : CurveFit α) : Except (FitError α) (ErrorEstimate α) := do
  let best ← fit.calcStat
  let sigmas ← fit.deviations
  let bounds ← (fit.thawedPlaces.zip sigmas).mapM fun ((p, i), sigma) =>
    fit.confidenceBounds (best + 1) i p sigma
  return {
    method := .confidence
    names := fit.thawedNames
    values := Parameters.thawedValues fit.parameters
    lower := bounds.map Prod.fst
    upper := bounds.map Prod.snd }

def estimateErrors (fit : CurveFit α) : Except (FitError α) (ErrorEstimate α) :=
  match fit.estimator with
  | .covariance => fit.covarianceErrors
  | .confidence => fit.confidenceErrors

instance : Fit (CurveFit α) α where
  modelName fit := fit.model.name
  parameters := CurveFit.parameters
  withParameters := withParameters
  statistic := CurveFit.stat
  method := CurveFit.method
  withMethod fit method := { fit with method }
  estimator := CurveFit.estimator
  withEstimator fit estimator := { fit with estimator }
  calcStat := calcStat
  minimise := minimise
  estimateErrors fit := (fit, fit.estimateErrors)
  startup := startup
  teardown := teardown

end ParameterScan.CurveFit
