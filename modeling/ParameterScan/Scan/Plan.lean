import ParameterScan.Grid.Build
import ParameterScan.Scan.Evaluator

/-!
# Preparing and running a scan

A plan holds everything that has to be known before a fit is touched: the targets, the statistic and
their values at the best fit, the grid, and the optimizer to use. Whatever can be refused is refused
while the plan is made. Running it holds the fit, evaluates the grid on copies and releases the fit,
whether or not a point has failed.
-/
namespace ParameterScan

variable {φ α : Type} [Scalar α] [Fit φ α] {n : Nat}

structure Plan (α : Type) (n : Nat) where
  mode : ScanMode
  targets : Vector Nat n
  labels : Vector String n
  stat : α
  values : Vector α n
  grid : Grid α n
  /-- The optimizer to use in place of that of the fit. -/
  method : Option Optimizer
  diagnostics : Diagnostics

namespace Plan

/-- The position of a parameter that is there and thawed. -/
def target (fit : φ) (context name : String) : Except (ScanError α) Nat :=
  match Fit.index? fit name with
  | none => .error (.notThawed name (Fit.modelName fit))
  | some i =>
      if (Fit.parameter fit i).frozen then .error (.frozenParameter name context) else .ok i

/-- The optimizer for a scan. An uncertainty scan has no use for one. -/
def methodFor (fit : φ) (mode : ScanMode) (fast : Bool) (context : String) :
    Option Optimizer × Diagnostics :=
  match mode with
  | .projection => chooseMethod (Fit.method fit) (Fit.statistic fit) fast (context ++ " plot")
  | .uncertainty => (none, [])

/-- What is checked before the grid is built: the statistic, the targets and the best fit. -/
def check (fit : φ) (names : Vector String n) (context : String) :
    Except (ScanError α) (Vector Nat n × α) := do
  if !(Fit.statistic fit).supportsConfidence then
    throw (.unsupportedStatistic (Fit.statistic fit) context)
  let targets ← names.mapM (target fit context)
  match Fit.calcStat fit with
  | .ok stat => return (targets, stat)
  | .error e => throw (.fit e)

/-- The plan of a scan. The fit comes back as an estimate of its errors leaves it. -/
def prepare (fit : φ) (names : Vector String n) (mode : ScanMode) (context : String)
    (req : GridRequest α n) (fast : Bool) : φ × Except (ScanError α) (Plan α n) :=
  match check fit names context with
  | .error e => (fit, .error e)
  | .ok (targets, stat) =>
      let values := targets.map fun i => (Fit.parameter fit i).value
      let labels := targets.map fun i => (Fit.parameter fit i).name
      match GridRequest.build fit targets req with
      | (fit, .error e) => (fit, .error e)
      | (fit, .ok grid) =>
          let (method, diagnostics) := methodFor fit mode fast context
          (fit, .ok { mode, targets, labels, stat, values, grid, method, diagnostics })

/-- The statistic at all points of the grid. The fit comes back released, also when there was no
pool of threads to evaluate with. -/
def execute (plan : Plan α n) (fit : φ) (workers : Option Nat)
    (refusal : PoolRefusal := .never) : φ × Except (ScanError α) (List α) :=
  let evaluator := Evaluator.make plan.grid plan.targets plan.mode (Fit.thawedCount fit)
  let held : Held φ α := Held.acquire fit plan.mode plan.targets.toList plan.method
  let outcome :=
    match refusal.reason workers with
    | some reason => .error (.workerPool reason)
    | none => (evaluator.evalAll held.fit plan.grid.mesh workers).mapError .fit
  (held.release, outcome)

end Plan

end ParameterScan
