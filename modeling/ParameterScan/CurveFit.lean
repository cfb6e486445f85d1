import ParameterScan.Dataset
import ParameterScan.Fit
import ParameterScan.Minimize.DampedLeastSquares
import ParameterScan.Minimize.Restart

/-!
# Fits of a curve to data

A curve with named parameters, compared with a dataset by a statistic. Between startup and teardown
the errors of the points are kept; they are the same as would be computed again. The statistic and
the residuals at a vector of thawed values are those of the curve with the vector put into the
parameters (`Parameters.substitute`), so an optimizer never writes to the fit: only the end of a
successful search does.
-/
namespace ParameterScan

structure Model (α : Type) where
  name : String
  parameters : List (Parameter α)
  curve : List α → α → α

namespace Model

variable {α : Type} [Scalar α]

def valuesAt (m : Model α) (values x : List α) : List α := x.map (m.curve values)

def values (m : Model α) (x : List α) : List α :=
  m.valuesAt (m.parameters.map Parameter.value) x

end Model

/-- How often a model was started up and torn down. -/
structure Lifecycle where
  startups : Nat := 0
  teardowns : Nat := 0
  deriving Repr, DecidableEq

structure CurveFit (α : Type) where
  data : Dataset α
  model : Model α
  stat : Statistic
  method : Optimizer := .levmar
  estimator : Estimator := .covariance
  config : SearchConfig α
  /-- The errors of the points, kept between startup and teardown. -/
  keptErrors : Option (List α) := none
  lifecycle : Lifecycle := {}

namespace CurveFit

variable {α : Type} [Scalar α]

def parameters (fit : CurveFit α) : List (Parameter α) := fit.model.parameters

def withParameters (fit : CurveFit α) (ps : List (Parameter α)) : CurveFit α :=
  { fit with model := { fit.model with parameters := ps } }

def modelValues (fit : CurveFit α) : List α := fit.model.values fit.data.x

/-- The errors of the data, or those that the statistic takes from the data if it does. -/
def effectiveErrors (fit : CurveFit α) : Option (List α) :=
  match fit.data.errors with
  | some e => some e
  | none => if fit.stat.hasErrors then some (Statistic.errorsOf fit.data.y) else none

/-- The errors that the statistic works with. -/
def statErrors (fit : CurveFit α) : Option (List α) :=
  match fit.keptErrors with
  | some e => some e
  | none => fit.effectiveErrors

def curveAt (fit : CurveFit α) (thawed : List α) : List α :=
  fit.model.valuesAt (Parameters.substitute fit.parameters thawed) fit.data.x

/-- The statistic with the given thawed values, finite or not. -/
def statAt (fit : CurveFit α) (errors : Option (List α)) (thawed : List α) : α :=
  fit.stat.value fit.data.y (fit.curveAt thawed) errors

/-- The residuals with the given thawed values, when all are finite. -/
def residualsAt (fit : CurveFit α) (errors : Option (List α)) (thawed : List α) :
    Option (List α) :=
  (fit.stat.residuals fit.data.y (fit.curveAt thawed) errors).filter fun r =>
    r.all Scalar.isFinite

def calcStat (fit : CurveFit α) : Except (FitError α) α :=
  let value := fit.statAt fit.statErrors (Parameters.thawedValues fit.parameters)
  if Scalar.isFinite value then .ok value else .error (.nonFiniteStat value)

/-- The limits of the thawed parameters. -/
def box (fit : CurveFit α) : Box α :=
  ⟨(Parameters.thawed fit.parameters).map Parameter.lower,
    (Parameters.thawed fit.parameters).map Parameter.upper⟩

def search (fit : CurveFit α) : Except (FitError α) (Minimum α) :=
  let x0 := Parameters.thawedValues fit.parameters
  let errors := fit.statErrors
  match fit.method with
  | .levmar =>
      if fit.stat.isLikelihood then .error (.unsupportedMethod fit.method fit.stat)
      else
        match DampedLeastSquares.search (fit.residualsAt errors) x0 fit.box fit.config with
        | some m => .ok m
        | none => .error (.nonFiniteStat (fit.statAt errors x0))
  | .nelderMead => .ok (Simplex.search (fit.statAt errors) x0 fit.box fit.config)
  | .monteCarlo => .ok (Restart.search (fit.statAt errors) x0 fit.box fit.config)

/-- A minimum that has a finite statistic and was reached within the budget. -/
def minimum (fit : CurveFit α) : Except (FitError α) (Minimum α) := do
  if (Parameters.thawedValues fit.parameters).isEmpty then throw .noThawedParameters
  let m ← fit.search
  if !Scalar.isFinite m.value then throw (.nonFiniteStat m.value)
  if !m.converged then throw (.nonConvergence fit.method m.evaluations)
  return m

def startup (fit : CurveFit α) : CurveFit α :=
  { fit with
    keptErrors := fit.effectiveErrors
    lifecycle := { fit.lifecycle with startups := fit.lifecycle.startups + 1 } }

def teardown (fit : CurveFit α) : CurveFit α :=
  { fit with
    keptErrors := none
    lifecycle := { fit.lifecycle with teardowns := fit.lifecycle.teardowns + 1 } }

/-- Assigns the thawed parameters; those before a refused value stay assigned. -/
def assignThawed (fit : CurveFit α) (xs : List α) : CurveFit α × Except (FitError α) Unit :=
  let (ps, outcome) := Parameters.assignThawed fit.parameters xs
  (fit.withParameters ps, outcome)

def minimise (fit : CurveFit α) (reuse : Bool) :
    CurveFit α × Except (FitError α) (FitResult α) :=
  let fit := if reuse then fit else fit.startup
  let outcome := fit.minimum
  let fit := if reuse then fit else fit.teardown
  match outcome with
  | .error e => (fit, .error e)
  | .ok m =>
      match fit.assignThawed m.point with
      | (fit, .error e) => (fit, .error e)
      | (fit, .ok ()) => (fit, .ok ⟨m.value, m.point, m.evaluations, fit.method⟩)

end CurveFit

end ParameterScan
