import ParameterScan.CurveFit
import ParameterScan.Diagnostic

/-!
# Residual displays

Four ways to compare the data of a fit with its curve, prepared for a plot. The errors of the points
are those of `CurveFit.pointErrors`: a statistic without errors gives none, even when the data have
some. Two of the displays only advise that they are missing, the other two cannot do without errors.
-/
namespace ParameterScan

structure Display (α : Type) where
  title : String
  xlabel : String
  ylabel : String
  x : List α
  y : List α
  /-- The length of the error bar of each point. -/
  errors : Option (List α)
  diagnostics : Diagnostics
  deriving Repr, DecidableEq

variable {α : Type} [Scalar α]

/-- The errors of the points, when the statistic has any. -/
def CurveFit.pointErrors (fit : CurveFit α) : Option (List α) :=
  if fit.stat.hasErrors then fit.effectiveErrors else none

def CurveFit.errorAdvice (fit : CurveFit α) : Option (List α) → Diagnostics
  | some _ => []
  | none =>
      [⟨.missingErrors, "unable to calculate errors using current statistic: " ++ fit.stat.name⟩]

namespace Display

def differences (fit : CurveFit α) : List α :=
  List.zipWith (· - ·) fit.data.y fit.modelValues

def residual (fit : CurveFit α) : Display α where
  title := "Residuals of " ++ fit.data.name ++ " - Model"
  xlabel := "x"
  ylabel := "y"
  x := fit.data.x
  y := differences fit
  errors := fit.pointErrors
  diagnostics := fit.errorAdvice fit.pointErrors

/-- A value of the curve that can be divided by. -/
def divisor (m : α) : α := if m == 0 then 1 else m

/-- The data in units of the curve. A point where the curve is zero is shown as zero. -/
def ratio (fit : CurveFit α) : Display α where
  title := "Ratio of " ++ fit.data.name ++ " : Model"
  xlabel := "x"
  ylabel := "Data / Model"
  x := fit.data.x
  y := List.zipWith (fun d m => if m == 0 then 0 else d / divisor m) fit.data.y fit.modelValues
  errors := fit.pointErrors.map fun e => List.zipWith (fun e m => e / divisor m) e fit.modelValues
  diagnostics := fit.errorAdvice fit.pointErrors

def scaled (fit : CurveFit α) (errors : List α) : List α :=
  List.zipWith (fun r e => r / e) (differences fit) errors

/-- The errors that `delchi` works with: those of the data come first, whatever the statistic. -/
def delchiErrors (fit : CurveFit α) : Option (List α) :=
  match fit.data.errors with
  | some e => some e
  | none => fit.pointErrors

/-- The differences in units of the errors, with bars of length one. -/
def delchi (fit : CurveFit α) : Except MissingErrors (Display α) :=
  match delchiErrors fit with
  | none => .error ⟨.delchi, fit.stat⟩
  | some e =>
      .ok {
        title := "Sigma Residuals of " ++ fit.data.name
        xlabel := "x"
        ylabel := "Sigma"
        x := fit.data.x
        y := scaled fit e
        errors := some (e.map fun _ => 1)
        diagnostics := [] }

/-- The squares of the differences in units of the errors. -/
def chisqr (fit : CurveFit α) : Except MissingErrors (Display α) :=
  match fit.pointErrors with
  | none => .error ⟨.chisqr, fit.stat⟩
  | some e =>
      .ok {
        title := "chi^2 of " ++ fit.data.name
        xlabel := "x"
        ylabel := "chi^2"
        x := fit.data.x
        y := (scaled fit e).map fun r => r * r
        errors := none
        diagnostics := [] }

def ofKind (fit : CurveFit α) : DisplayKind → Except MissingErrors (Display α)
  | .residual => .ok (residual fit)
  | .ratio => .ok (ratio fit)
  | .delchi => delchi fit
  | .chisqr => chisqr fit

end Display

end ParameterScan
