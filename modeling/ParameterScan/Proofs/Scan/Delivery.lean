import ParameterScan.Proofs.Failure

/-!
# What the threads of a scan may come back with

A scan deals its points out in one order. Threads take them in any order, and where several points
fail, any of their errors may be the one that is reported. The answers of all these runs are those
that the plan delivers, and the answer of `Plan.execute` is one of them. What no point fails with,
no run fails with either, however the points are shared out.
-/
namespace ParameterScan.Plan

variable {φ α : Type} [Scalar α] [Fit φ α] {n : Nat}

/-- The evaluator of a run. -/
def evaluator (plan : Plan α n) (fit : φ) : Evaluator α n :=
  Evaluator.make plan.grid plan.targets plan.mode (Fit.thawedCount fit)

/-- The fit that a run evaluates copies of. -/
def heldFit (plan : Plan α n) (fit : φ) : φ :=
  (Held.acquire fit plan.mode plan.targets.toList plan.method : Held φ α).fit

/-- The answers of the runs over the points of a plan, in any order and with so many workers. -/
def Delivers (plan : Plan α n) (fit : φ) (workers : Nat)
    (out : Except (FitError α) (List α)) : Prop :=
  Pool.Delivered (plan.evaluator fit).eval (plan.heldFit fit) plan.grid.mesh workers out

variable {plan : Plan α n} {fit : φ}

omit [Scalar α] in
/-- Only a projection fits again. -/
theorem mode_of_refits (h : (plan.evaluator fit).refits = true) : plan.mode = .projection := by
  simp only [evaluator, Evaluator.make, Bool.and_eq_true, decide_eq_true_eq] at h
  exact h.1

/-- A run fails only in the way in which a point does. -/
theorem Delivers.fails {P : FitError α → Prop} {workers : Nat}
    {out : Except (FitError α) (List α)} (h : plan.Delivers fit workers out)
    (hpoint : ∀ p, Fails P ((plan.evaluator fit).eval (plan.heldFit fit) p).2) : Fails P out := by
  rintro e rfl
  obtain ⟨p, -, hp⟩ := Pool.Delivered.answers h
  exact hpoint p e hp

/-- The error of a run is one that some order of the points delivers. -/
theorem delivers_of_execute {workers : Option Nat} {refusal : PoolRefusal} {cause : FitError α}
    (h : (plan.execute fit workers refusal).2 = .error (.fit cause)) :
    plan.Delivers fit (crewSize workers) (.error cause) := by
  have hone : plan.Delivers fit (crewSize workers)
      ((plan.evaluator fit).evalAll (plan.heldFit fit) plan.grid.mesh workers) :=
    Pool.delivered_parallelMap _ _ _ _
  cases hreason : refusal.reason workers with
  | some reason =>
      simp only [execute, hreason] at h
      cases h
  | none =>
      simp only [execute, hreason] at h
      change ((plan.evaluator fit).evalAll (plan.heldFit fit) plan.grid.mesh workers).mapError
        ScanError.fit = _ at h
      cases hout : (plan.evaluator fit).evalAll (plan.heldFit fit) plan.grid.mesh workers with
      | ok ys =>
          rw [hout] at h
          cases h
      | error e =>
          rw [hout] at h hone
          obtain rfl : e = cause := ScanError.fit.inj (Except.error.inj h)
          exact hone

end ParameterScan.Plan
