import ParameterScan.Diagnostic
import ParameterScan.Method
import ParameterScan.Statistic

/-!
# The two ways to scan

A projection fits the other parameters again at each point, an uncertainty scan holds them. Only a
projection needs an optimizer: it is told when the one in use is not trusted for confidence limits,
and a fast one exchanges it for the one that suits the statistic.
-/
namespace ParameterScan

inductive ScanMode where
  /-- Only the scanned parameters are frozen. -/
  | projection
  /-- Every parameter is frozen. -/
  | uncertainty
  deriving Repr, DecidableEq

namespace ScanMode

def name : ScanMode → String
  | projection => "projection"
  | uncertainty => "uncertainty"

def ofName? : String → Option ScanMode
  | "projection" => some projection
  | "uncertainty" => some uncertainty
  | _ => none

def title : ScanMode → String
  | projection => "Projection"
  | uncertainty => "Uncertainty"

end ScanMode

/-- The optimizer that suits a statistic. -/
def Statistic.suitedOptimizer (s : Statistic) : Optimizer :=
  if s.isLikelihood then .nelderMead else .levmar

/-- The warning about an optimizer that is not trusted for confidence limits. -/
def Optimizer.cautions (m : Optimizer) : Diagnostics :=
  if m.suitsConfidence then []
  else [⟨.inappropriateMethod, m.name ++ " is inappropriate for confidence limit estimation"⟩]

/-- The optimizer to use in place of the current one, if any, and what is to be said about it. -/
def chooseMethod (current : Optimizer) (stat : Statistic) (fast : Bool) (context : String) :
    Option Optimizer × Diagnostics :=
  let wanted := stat.suitedOptimizer
  if !fast || current = wanted then (none, current.cautions)
  else
    (some wanted, current.cautions ++
      [⟨.methodSwitched, "Setting optimization to " ++ wanted.name ++ " for " ++ context⟩])

end ParameterScan
