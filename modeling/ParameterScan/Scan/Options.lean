import ParameterScan.Grid.Build
import ParameterScan.Scan.Levels

/-!
# Options of a scan

Bounds and counts may be single values or lists, so that options of the wrong shape can be read and
the scan says what is wrong with them. An interval takes single values, a region takes pairs. A
spacing comes before a count.
-/
namespace ParameterScan

structure IntervalOptions (α : Type) where
  lower : Option (PerAxis α) := none
  upper : Option (PerAxis α) := none
  count : PerAxis Nat := .single 20
  spacing : Option α := none
  factor : α
  log : Bool := false
  workers : Option Nat := none
  fast : Bool := true
  deriving Repr, DecidableEq

structure RegionOptions (α : Type) where
  lower : Option (PerAxis α) := none
  upper : Option (PerAxis α) := none
  count : PerAxis Nat := .pair 10 10
  spacing : Option (Vector α 2) := none
  factor : α
  log : Vector Bool 2 := .replicate 2 false
  sigma : Option (PerAxis α)
  levels : Option (List α) := none
  workers : Option Nat := none
  fast : Bool := true
  deriving Repr, DecidableEq

variable {α : Type} [Scalar α]

instance : Inhabited (IntervalOptions α) := ⟨{ factor := 1 }⟩

instance : Inhabited (RegionOptions α) := ⟨{ factor := 4, sigma := some (.each [1, 2, 3]) }⟩

namespace IntervalOptions

/-- A bound that is missing or a single value. -/
def bound (b : Option (PerAxis α)) : Except (ScanError α) (Option (Vector α 1)) :=
  match b with
  | none => .ok none
  | some (.single x) => .ok (some #v[x])
  | some (.each _) => .error (.nonScalarBounds "scalars")

def layout (o : IntervalOptions α) : Except (ScanError α) (Layout α) :=
  match o.spacing, o.count with
  | some d, _ => .ok (.spacing d)
  | none, .single k => .ok (.count k)
  | none, .each _ => .error (.insufficientSteps "a scalar > 1")

def gridRequest (o : IntervalOptions α) : Except (ScanError α) (GridRequest α 1) := do
  let lower ← bound o.lower
  let upper ← bound o.upper
  let layout ← o.layout
  return { lower, upper, layout := #v[layout], factor := o.factor, log := #v[o.log] }

end IntervalOptions

namespace RegionOptions

/-- A bound that is missing or a pair. -/
def bound (b : Option (PerAxis α)) : Except (ScanError α) (Option (Vector α 2)) :=
  match b with
  | none => .ok none
  | some b =>
      match b.vector? 2 with
      | some v => .ok (some v)
      | none => .error (.nonScalarBounds "a list")

def layout (o : RegionOptions α) : Except (ScanError α) (Vector (Layout α) 2) :=
  match o.spacing with
  | some d => .ok (d.map .spacing)
  | none =>
      match o.count.vector? 2 with
      | some k => .ok (k.map .count)
      | none => .error (.insufficientSteps "a list with elements > 1")

def gridRequest (o : RegionOptions α) : Except (ScanError α) (GridRequest α 2) := do
  let lower ← bound o.lower
  let upper ← bound o.upper
  let layout ← o.layout
  return { lower, upper, layout, factor := o.factor, log := o.log }

end RegionOptions

end ParameterScan
