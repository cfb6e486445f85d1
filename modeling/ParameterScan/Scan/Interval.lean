import ParameterScan.Scan.Options
import ParameterScan.Scan.Plan

/-!
# Confidence intervals

The statistic as a function of one parameter. A scan object keeps its options and its last result; a
scan that fails leaves the result of the one before.
-/
namespace ParameterScan

variable {φ α : Type} [Scalar α] [Fit φ α]

structure IntervalResult (α : Type) where
  title : String
  xlabel : String
  ylabel : String
  /-- The values of the parameter that were tried. -/
  x : List α
  y : List α
  /-- The range after clipping. -/
  lower : α
  upper : α
  count : Nat
  spacing : Option α
  factor : α
  log : Bool
  stat : α
  value : α
  diagnostics : Diagnostics
  deriving Repr, DecidableEq

def statLabel : String := "Statistic Value"

structure IntervalScan (α : Type) where
  mode : ScanMode
  options : IntervalOptions α
  result : Option (IntervalResult α) := none

namespace IntervalScan

def context (mode : ScanMode) : String := "interval " ++ mode.name

def report (options : IntervalOptions α) (plan : Plan α 1) (y : List α) : IntervalResult α :=
  let axis := plan.grid.axes.get ⟨0, Nat.zero_lt_one⟩
  { title := "Interval-" ++ plan.mode.title
    xlabel := plan.labels.get ⟨0, Nat.zero_lt_one⟩
    ylabel := statLabel
    x := axis.linearValues
    y
    lower := axis.lower
    upper := axis.upper
    count := axis.size
    spacing := options.spacing
    factor := options.factor
    log := axis.log
    stat := plan.stat
    value := plan.values.get ⟨0, Nat.zero_lt_one⟩
    diagnostics := plan.diagnostics }

def compute (mode : ScanMode) (options : IntervalOptions α) (fit : φ) (name : String)
    (refusal : PoolRefusal := .never) : φ × Except (ScanError α) (IntervalResult α) :=
  match options.gridRequest with
  | .error e => (fit, .error e)
  | .ok req =>
      match Plan.prepare fit (.singleton name) mode (context mode) req options.fast with
      | (fit, .error e) => (fit, .error e)
      | (fit, .ok plan) =>
          let (fit, y) := plan.execute fit options.workers refusal
          (fit, y.map (report options plan))

/-- Scans one parameter and keeps the result if there is one. -/
def run (s : IntervalScan α) (fit : φ) (name : String) (refusal : PoolRefusal := .never) :
    IntervalScan α × φ × Except (ScanError α) (IntervalResult α) :=
  match compute s.mode s.options fit name refusal with
  | (fit, .ok r) => ({ s with result := some r }, fit, .ok r)
  | (fit, .error e) => (s, fit, .error e)

end IntervalScan

end ParameterScan
