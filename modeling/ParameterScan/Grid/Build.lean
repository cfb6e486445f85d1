import ParameterScan.Fit
import ParameterScan.Grid

/-!
# Building a grid

A request names the bounds, or leaves one side or both open, and the layout of each axis. Open
sides are derived from a covariance estimate, re-centred and widened by a factor. Each range is
then clipped to the hard limits of its parameter. Everything is checked before a point is made, and
the estimator of the fit is exchanged only while the estimate is taken.
-/
namespace ParameterScan

structure GridRequest (α : Type) (n : Nat) where
  lower : Option (Vector α n)
  upper : Option (Vector α n)
  layout : Vector (Layout α) n
  factor : α
  log : Vector Bool n

namespace GridRequest

variable {φ α : Type} [Scalar α] [Fit φ α] {n : Nat}

/-- The largest number of points of an axis that is given by a step. -/
def maxStepped : Nat := 1000000

/-- What a grid of `n` axes asks of its counts. -/
def countRule (n : Nat) : String := if n = 1 then "> 1" else "a list with elements > 1"

def positiveFinite (x : α) : Bool := Scalar.isFinite x && decide (0 < x)

/-- A count of two or more, or a step that is positive and finite. -/
def checkLayout (n axis : Nat) : Layout α → Except (ScanError α) Unit
  | .count k => if k ≤ 1 then .error (.insufficientSteps (countRule n)) else .ok ()
  | .spacing d => if positiveFinite d then .ok () else .error (.invalidSpacing axis d)

def checkLayouts (req : GridRequest α n) : Except (ScanError α) Unit :=
  (List.finRange n).forM fun a => checkLayout n a (req.layout.get a)

/-- The range of an axis before it is clipped. -/
abbrev Range (α : Type) := α × α

/-- An offset of an estimate that is a number. -/
def usable (offset : Option α) : Option α := offset.filter fun x => !Scalar.isNaN x

/-- Re-centres a range and widens it by a factor on both sides. -/
def widen (factor : α) (r : Range α) : Range α :=
  let middle := 0.5 * (r.2 + r.1)
  let half := Scalar.abs (middle - r.1)
  (middle - factor * half, middle + factor * half)

/-- The widened range of one parameter: a given side, or the value plus its offset in the estimate,
or the hard limit where the estimate has none. -/
def derivedRange (factor : α) (estimate : ErrorEstimate α) (p : Parameter α)
    (lower upper : Option α) : Except (ScanError α) (Range α) :=
  match estimate.index? p.name with
  | none => .error (.missingEstimate p.name)
  | some k =>
      let side (given : Option α) (offsets : List (Option α)) (limit : α) : α :=
        match given with
        | some x => x
        | none => ((usable (offsets.getD k none)).map (p.value + ·)).getD limit
      .ok (widen factor (side lower estimate.lower p.lower, side upper estimate.upper p.upper))

/-- An error estimate by covariance; the fit keeps its own estimator. -/
def covarianceEstimate (fit : φ) : φ × Except (FitError α) (ErrorEstimate α) :=
  let own := Fit.estimator fit
  let (fit, estimate) := Fit.estimateErrors (Fit.withEstimator fit .covariance)
  (Fit.withEstimator fit own, estimate)

def derivedRanges (req : GridRequest α n) (fit : φ) (idx : Vector Nat n)
    (estimate : ErrorEstimate α) : Except (ScanError α) (Vector (Range α) n) :=
  (Vector.finRange n).mapM fun (a : Fin n) =>
    derivedRange req.factor estimate (Fit.parameter fit (idx.get a)) (req.lower.map (·.get a))
      (req.upper.map (·.get a))

/-- The ranges that are given, or derived from an estimate when a side is open. -/
def ranges (fit : φ) (idx : Vector Nat n) (req : GridRequest α n) :
    φ × Except (ScanError α) (Vector (Range α) n) :=
  match req.lower, req.upper with
  | some lower, some upper => (fit, .ok (Vector.ofFn fun a => (lower.get a, upper.get a)))
  | _, _ =>
      if positiveFinite req.factor then
        match covarianceEstimate fit with
        | (fit, .error e) => (fit, .error (.fit e))
        | (fit, .ok estimate) => (fit, req.derivedRanges fit idx estimate)
      else (fit, .error (.invalidFactor req.factor))

/-- A range that is not empty. A `NaN` at either end fails here. -/
def checkRange (axis : Nat) (r : Range α) : Except (ScanError α) Unit :=
  if r.1 < r.2 then .ok () else .error (.invalidBounds axis r.1 r.2)

/-- A step that does not make more points than an axis may have. -/
def checkSteps (axis : Nat) (r : Range α) : Layout α → Except (ScanError α) Unit
  | .count _ => .ok ()
  | .spacing d =>
      if Spacing.stepCount r.1 r.2 d ≤ Scalar.ofNat maxStepped then .ok ()
      else .error (.invalidSpacing axis d)

/-- A logarithmic axis lies to the right of zero. -/
def checkLog (axis : Nat) (r : Range α) (log : Bool) : Except (ScanError α) Unit :=
  if !log || (decide (0 < r.1) && decide (0 < r.2)) then .ok ()
  else .error (.logScaleDomain axis r.1 r.2)

/-- One axis over a range clipped to the limits of its parameter. -/
def axis (a : Nat) (p : Parameter α) (r : Range α) (layout : Layout α) (log : Bool) :
    Except (ScanError α) (Axis α) := do
  checkRange a r
  let clipped := (Scalar.larger r.1 p.lower, Scalar.smaller r.2 p.upper)
  checkRange a clipped
  checkSteps a clipped layout
  checkLog a clipped log
  return Axis.make clipped.1 clipped.2 layout log

def axes (req : GridRequest α n) (fit : φ) (idx : Vector Nat n) (rs : Vector (Range α) n) :
    Except (ScanError α) (Vector (Axis α) n) :=
  (Vector.finRange n).mapM fun (a : Fin n) =>
    axis a.val (Fit.parameter fit (idx.get a)) (rs.get a) (req.layout.get a) (req.log.get a)

def build (fit : φ) (idx : Vector Nat n) (req : GridRequest α n) :
    φ × Except (ScanError α) (Grid α n) :=
  match req.checkLayouts with
  | .error e => (fit, .error e)
  | .ok () =>
      match ranges fit idx req with
      | (fit, .error e) => (fit, .error e)
      | (fit, .ok rs) => (fit, (req.axes fit idx rs).map Grid.mk)

end GridRequest

end ParameterScan
