import ParameterScan.Method
import ParameterScan.Statistic

/-!
# What can go wrong

Three kinds of failure: of a fit and its parameters, of a display that lacks errors, and of a scan,
which wraps those of the fit. Each has one wording. The wordings take the text of a number as an
argument.
-/
namespace ParameterScan

inductive FitError (α : Type) where
  | outOfLimits (name : String) (value lower upper : α)
  | thawedLength (expected got : Nat)
  | nonFiniteStat (value : α)
  | nonConvergence (method : Optimizer) (evaluations : Nat)
  | singularCurvature
  | unsupportedMethod (method : Optimizer) (stat : Statistic)
  | noThawedParameters
  | emptyData
  | dataShape (detail : String)
  deriving Repr, DecidableEq

def FitError.message {α : Type} (text : α → String) : FitError α → String
  | outOfLimits name value lower upper =>
      "parameter '" ++ name ++ "' value " ++ text value ++ " is outside its limits ["
        ++ text lower ++ ", " ++ text upper ++ "]"
  | thawedLength expected got =>
      "thawed parameter vector has length " ++ toString got ++ ", expected " ++ toString expected
  | nonFiniteStat value => "statistic evaluated to a non-finite value (" ++ text value ++ ")"
  | nonConvergence method evaluations =>
      method.name ++ " did not converge after " ++ toString evaluations ++ " function evaluations"
  | singularCurvature => "curvature matrix is singular; cannot estimate errors"
  | unsupportedMethod method stat =>
      method.name ++ " cannot be used with the " ++ stat.name ++ " statistic"
  | noThawedParameters => "model has no thawed parameters"
  | emptyData => "dataset is empty"
  | dataShape detail => "dataset arrays have mismatched lengths: " ++ detail

inductive DisplayKind where
  | residual
  | ratio
  | delchi
  | chisqr
  deriving Repr, DecidableEq

def DisplayKind.name : DisplayKind → String
  | residual => "resid"
  | ratio => "ratio"
  | delchi => "delchi"
  | chisqr => "chisqr"

/-- A display asked for errors that the statistic does not have. -/
structure MissingErrors where
  display : DisplayKind
  stat : Statistic
  deriving Repr, DecidableEq

def MissingErrors.message (e : MissingErrors) : String :=
  e.display.name ++ " is not available with the " ++ e.stat.name
    ++ " statistic (no per-point errors)"

/-- Failures of a scan. An axis is counted from zero. -/
inductive ScanError (α : Type) where
  | frozenParameter (name context : String)
  | notThawed (name model : String)
  | invalidBounds (axis : Nat) (lower upper : α)
  | nonScalarBounds (expected : String)
  | insufficientSteps (expected : String)
  | invalidSpacing (axis : Nat) (spacing : α)
  | invalidFactor (factor : α)
  | logScaleDomain (axis : Nat) (lower upper : α)
  | unsupportedStatistic (stat : Statistic) (context : String)
  | sigmaSpec (reason : String)
  | missingEstimate (name : String)
  | workerPool (reason : String)
  | fit (error : FitError α)
  deriving Repr, DecidableEq

def ScanError.message {α : Type} (text : α → String) : ScanError α → String
  | frozenParameter name context =>
      "parameter '" ++ name ++ "' is frozen; cannot compute " ++ context
  | notThawed name model =>
      "parameter '" ++ name ++ "' is not a thawed parameter of model '" ++ model ++ "'"
  | invalidBounds axis lower upper =>
      "parameter limits are invalid on axis " ++ toString axis ++ ": min (" ++ text lower
        ++ ") must be less than max (" ++ text upper ++ ")"
  | nonScalarBounds expected => "parameter limits must be " ++ expected
  | insufficientSteps expected => "nloop parameter must be " ++ expected
  | invalidSpacing axis spacing =>
      "step size on axis " ++ toString axis
        ++ " must be positive, finite and coarse enough for the axis range, got " ++ text spacing
  | invalidFactor factor => "fac must be positive and finite, got " ++ text factor
  | logScaleDomain axis lower upper =>
      "log scale on axis " ++ toString axis ++ " requires positive boundaries, got ["
        ++ text lower ++ ", " ++ text upper ++ "]"
  | unsupportedStatistic stat context =>
      "the " ++ stat.name ++ " statistic cannot be used for " ++ context
  | sigmaSpec reason => "sigma bounds must be a non-empty list: " ++ reason
  | missingEstimate name => "error estimate did not report parameter '" ++ name ++ "'"
  | workerPool reason => "failed to build worker pool: " ++ reason
  | fit error => "fit error: " ++ error.message text

end ParameterScan
