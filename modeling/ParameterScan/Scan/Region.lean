import ParameterScan.Scan.Options
import ParameterScan.Scan.Plan

/-!
# Confidence regions

The statistic over a mesh of two parameters, with the levels at which to draw contours. The columns
and the statistic are in mesh order, the first parameter running fastest. The levels are settled
before the fit is touched.
-/
namespace ParameterScan

variable {φ α : Type} [Scalar α] [Fit φ α]

structure RegionResult (α : Type) where
  title : String
  xlabel : String
  ylabel : String
  /-- The values of the first parameter, point by point. -/
  x0 : List α
  /-- The values of the second parameter, point by point. -/
  x1 : List α
  y : List α
  /-- The ranges after clipping. -/
  lower : Vector α 2
  upper : Vector α 2
  count : Vector Nat 2
  spacing : Option (Vector α 2)
  factor : α
  log : Vector Bool 2
  /-- The multiples of the standard deviation that the levels come from. -/
  sigma : Option (List α)
  levels : List α
  stat : α
  value0 : α
  value1 : α
  diagnostics : Diagnostics
  deriving Repr, DecidableEq

structure RegionScan (α : Type) where
  mode : ScanMode
  options : RegionOptions α
  result : Option (RegionResult α) := none

namespace RegionScan

def context (mode : ScanMode) : String := "region " ++ mode.name

/-- The multiples that were used; none when the levels were given. -/
def usedSigma (options : RegionOptions α) : Option (List α) :=
  match options.levels with
  | some _ => none
  | none => options.sigma.bind PerAxis.list?

def report (options : RegionOptions α) (plan : Plan α 2) (levels y : List α) :
    RegionResult α :=
  { title := "Region-" ++ plan.mode.title
    xlabel := plan.labels.get ⟨0, Nat.zero_lt_two⟩
    ylabel := plan.labels.get ⟨1, Nat.one_lt_two⟩
    x0 := plan.grid.meshColumn ⟨0, Nat.zero_lt_two⟩
    x1 := plan.grid.meshColumn ⟨1, Nat.one_lt_two⟩
    y
    lower := plan.grid.axes.map Axis.lower
    upper := plan.grid.axes.map Axis.upper
    count := plan.grid.axes.map Axis.size
    spacing := options.spacing
    factor := options.factor
    log := plan.grid.axes.map Axis.log
    sigma := usedSigma options
    levels
    stat := plan.stat
    value0 := plan.values.get ⟨0, Nat.zero_lt_two⟩
    value1 := plan.values.get ⟨1, Nat.one_lt_two⟩
    diagnostics := plan.diagnostics }

def compute (mode : ScanMode) (options : RegionOptions α) (fit : φ) (names : Vector String 2)
    (refusal : PoolRefusal := .never) : φ × Except (ScanError α) (RegionResult α) :=
  match options.gridRequest with
  | .error e => (fit, .error e)
  | .ok req =>
      match Plan.prepare fit names mode (context mode) req options.fast with
      | (fit, .error e) => (fit, .error e)
      | (fit, .ok plan) =>
          match Levels.contour plan.stat options.levels options.sigma with
          | .error e => (fit, .error e)
          | .ok levels =>
              let (fit, y) := plan.execute fit options.workers refusal
              (fit, y.map (report options plan levels))

/-- Scans two parameters and keeps the result if there is one. -/
def run (s : RegionScan α) (fit : φ) (name0 name1 : String) (refusal : PoolRefusal := .never) :
    RegionScan α × φ × Except (ScanError α) (RegionResult α) :=
  match compute s.mode s.options fit #v[name0, name1] refusal with
  | (fit, .ok r) => ({ s with result := some r }, fit, .ok r)
  | (fit, .error e) => (s, fit, .error e)

end RegionScan

end ParameterScan
