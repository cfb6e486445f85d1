import Mathlib.Tactic.SplitIfs
import ParameterScan.Fit.Estimate
import ParameterScan.Grid.Build
import ParameterScan.Scan.Plan

/-!
# What a scan relies on in a fit

A scan goes through the interface of a fit and knows nothing of what is behind it. Where a result on
scans is about every fit, it takes from the fit that an action changes what it says it changes: the
parameters stay where an estimator or an optimizer is exchanged, an estimate is taken or the model
is started up, and those that are written are there. What the statistic is and where a minimisation
ends is left open.
-/
namespace ParameterScan

/-- A fit whose actions leave the parameters alone, except for the one that writes them. -/
class Fit.Lawful (φ : Type) {α : outParam Type} [Fit φ α] : Prop where
  parameters_withParameters (fit : φ) (ps : List (Parameter α)) :
    parameters (withParameters fit ps) = ps
  parameters_withMethod (fit : φ) (m : Optimizer) : parameters (withMethod fit m) = parameters fit
  parameters_withEstimator (fit : φ) (m : Estimator) :
    parameters (withEstimator fit m) = parameters fit
  parameters_estimateErrors (fit : φ) : parameters (estimateErrors fit).1 = parameters fit
  parameters_startup (fit : φ) : parameters (startup fit) = parameters fit

attribute [simp] Fit.Lawful.parameters_withParameters Fit.Lawful.parameters_withMethod
  Fit.Lawful.parameters_withEstimator Fit.Lawful.parameters_estimateErrors
  Fit.Lawful.parameters_startup

instance {α : Type} [Scalar α] : Fit.Lawful (CurveFit α) where
  parameters_withParameters _ _ := rfl
  parameters_withMethod _ _ := rfl
  parameters_withEstimator _ _ := rfl
  parameters_estimateErrors _ := rfl
  parameters_startup _ := rfl

variable {φ α : Type} [Scalar α] [Fit φ α] [Fit.Lawful φ] {n : Nat}

namespace GridRequest

theorem parameters_ranges (fit : φ) (idx : Vector Nat n) (req : GridRequest α n) :
    Fit.parameters (ranges fit idx req).1 = Fit.parameters fit := by
  have hestimate : Fit.parameters (covarianceEstimate fit).1 = Fit.parameters fit := by
    simp [covarianceEstimate]
  unfold ranges
  split
  · rfl
  · split_ifs
    · cases h : covarianceEstimate fit with
      | mk after outcome =>
          rw [h] at hestimate
          cases outcome <;> exact hestimate
    · rfl

theorem parameters_build (fit : φ) (idx : Vector Nat n) (req : GridRequest α n) :
    Fit.parameters (build fit idx req).1 = Fit.parameters fit := by
  have hranges := parameters_ranges fit idx req
  unfold build
  cases req.checkLayouts with
  | error e => rfl
  | ok _ =>
      cases h : ranges fit idx req with
      | mk after outcome =>
          rw [h] at hranges
          cases outcome <;> exact hranges

end GridRequest

/-- Making a plan changes no parameter, also where it is refused. -/
theorem Plan.parameters_prepare (fit : φ) (names : Vector String n) (mode : ScanMode)
    (context : String) (req : GridRequest α n) (fast : Bool) :
    Fit.parameters (prepare fit names mode context req fast).1 = Fit.parameters fit := by
  unfold prepare
  cases check fit names context with
  | error e => rfl
  | ok found =>
      obtain ⟨targets, stat⟩ := found
      have hbuild := GridRequest.parameters_build fit targets req
      cases h : GridRequest.build fit targets req with
      | mk after outcome =>
          rw [h] at hbuild
          cases outcome <;> simpa [h] using hbuild

end ParameterScan
