/-!
# Advisories

Conditions that do not stop a scan or a display are recorded next to its result, in the order in
which they arose.
-/
namespace ParameterScan

inductive DiagnosticKind where
  /-- The optimizer is not recommended for confidence limits. -/
  | inappropriateMethod
  /-- The optimizer was exchanged while a projection ran. -/
  | methodSwitched
  /-- The statistic has no errors for the points. -/
  | missingErrors
  deriving Repr, DecidableEq

namespace DiagnosticKind

def name : DiagnosticKind → String
  | inappropriateMethod => "inappropriate_method"
  | methodSwitched => "method_switched"
  | missingErrors => "missing_stat_errors"

def ofName? : String → Option DiagnosticKind
  | "inappropriate_method" => some inappropriateMethod
  | "method_switched" => some methodSwitched
  | "missing_stat_errors" => some missingErrors
  | _ => none

theorem ofName?_name (k : DiagnosticKind) : ofName? k.name = some k := by
  cases k <;> rfl

end DiagnosticKind

structure Diagnostic where
  kind : DiagnosticKind
  message : String
  deriving Repr, DecidableEq

/-- The advisories of one result, oldest first. -/
abbrev Diagnostics := List Diagnostic

def Diagnostics.kinds (ds : Diagnostics) : List DiagnosticKind :=
  ds.map Diagnostic.kind

def Diagnostics.has (ds : Diagnostics) (kind : DiagnosticKind) : Bool :=
  ds.any fun d => d.kind = kind

end ParameterScan
