import ParameterScan.Fit
import ParameterScan.Scan.Mode

/-!
# Holding a fit for a scan

A fit is held in its scanning state with a record of what it was: the frozen flags, the thawed
values and the optimizer. Releasing it puts these back in an order that matters: the flags first,
because the values belong to the parameters that were thawed, then the teardown, the values and the
optimizer. A value that its parameter refuses ends the restoring of the values.
-/
namespace ParameterScan

variable {φ α : Type} [Scalar α] [Fit φ α]

/-- A fit in its scanning state and what it was before. -/
structure Held (φ α : Type) where
  fit : φ
  frozen : List Bool
  values : List α
  method : Optimizer

namespace Held

/-- Freezes the targets, or everything. -/
def freezeFor (mode : ScanMode) (targets : List Nat) (fit : φ) : φ :=
  match mode with
  | .projection => targets.foldl (fun fit i => Fit.modifyParameter fit i Parameter.freeze) fit
  | .uncertainty => Fit.withParameters fit ((Fit.parameters fit).map Parameter.freeze)

/-- Brings a fit into its scanning state and starts the model up. -/
def acquire (fit : φ) (mode : ScanMode) (targets : List Nat) (method : Option Optimizer) :
    Held φ α where
  fit := Fit.startup (freezeFor mode targets (Fit.withMethod fit (method.getD (Fit.method fit))))
  frozen := (Fit.parameters fit).map Parameter.frozen
  values := Fit.thawedValues fit
  method := Fit.method fit

/-- Parameters with the given flags, as far as there are any. -/
def restoreFlags : List (Parameter α) → List Bool → List (Parameter α)
  | p :: ps, b :: bs => { p with frozen := b } :: restoreFlags ps bs
  | ps, _ => ps

def release (h : Held φ α) : φ :=
  let fit := Fit.withParameters h.fit (restoreFlags (Fit.parameters h.fit) h.frozen)
  let fit := Fit.teardown fit
  let fit := (Fit.assignThawed fit h.values).1
  Fit.withMethod fit h.method

end Held

end ParameterScan
