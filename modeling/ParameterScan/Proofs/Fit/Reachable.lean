import ParameterScan.Fit.Estimate
import ParameterScan.Proofs.Parameter

/-!
# The fits that a program can have

A fit is made without kept errors and changed by the operations of its interface: its parameters may
be written in any way, its settings exchanged, its model started up, torn down and fitted again. No
operation reaches its data or its statistic. Hence kept errors are those that would be computed
again, and the statistic is the same between startup and teardown as outside.
-/
namespace ParameterScan

theorem exists_of_isOk {ε ρ : Type} {x : Except ε ρ} (h : x.isOk = true) : ∃ r, x = .ok r := by
  cases x with
  | error e => cases h
  | ok r => exact ⟨r, rfl⟩

theorem exists_of_toOption_any {ε ρ : Type} {x : Except ε ρ} {p : ρ → Bool}
    (h : x.toOption.any p = true) : ∃ r, x = .ok r ∧ p r = true := by
  cases x with
  | error e => cases h
  | ok r => exact ⟨r, rfl, h⟩

namespace CurveFit

variable {α : Type} [Scalar α]

inductive Reachable : CurveFit α → Prop
  | made {fit : CurveFit α} : fit.keptErrors = none → Reachable fit
  | parameters {fit : CurveFit α} (ps : List (Parameter α)) :
      Reachable fit → Reachable (fit.withParameters ps)
  | settings {fit : CurveFit α} (method : Optimizer) (estimator : Estimator)
      (config : SearchConfig α) : Reachable fit → Reachable { fit with method, estimator, config }
  | startup {fit : CurveFit α} : Reachable fit → Reachable fit.startup
  | teardown {fit : CurveFit α} : Reachable fit → Reachable fit.teardown
  | minimise {fit : CurveFit α} (reuse : Bool) :
      Reachable fit → Reachable (fit.minimise reuse).1

/-- Kept errors are the effective ones. -/
def Coherent (fit : CurveFit α) : Prop :=
  ∀ errors, fit.keptErrors = some errors → fit.effectiveErrors = some errors

theorem Coherent.statErrors {fit : CurveFit α} (h : fit.Coherent) :
    fit.statErrors = fit.effectiveErrors := by
  unfold CurveFit.statErrors
  cases hk : fit.keptErrors with
  | none => rfl
  | some errors => exact (h errors hk).symm

theorem coherent_startup (fit : CurveFit α) : fit.startup.Coherent := fun _ h => h

theorem coherent_teardown (fit : CurveFit α) : fit.teardown.Coherent := fun _ h => nomatch h

theorem statErrors_startup (fit : CurveFit α) : fit.startup.statErrors = fit.effectiveErrors :=
  (coherent_startup fit).statErrors

/-- The fit that a minimisation searches from. -/
def started (fit : CurveFit α) (reuse : Bool) : CurveFit α := if reuse then fit else fit.startup

/-- The fit that a minimisation leaves, up to the values of its parameters. -/
def finished (fit : CurveFit α) (reuse : Bool) : CurveFit α :=
  if reuse then fit else fit.startup.teardown

theorem minimise_eq (fit : CurveFit α) (reuse : Bool) :
    fit.minimise reuse =
      match (fit.started reuse).minimum with
      | .error e => (fit.finished reuse, .error e)
      | .ok m =>
          let (ps, outcome) := Parameters.assignThawed fit.parameters m.point
          ((fit.finished reuse).withParameters ps,
            outcome.map fun _ => ⟨m.value, m.point, m.evaluations, fit.method⟩) := by
  unfold minimise started finished
  cases reuse with
  | true =>
      simp only [if_true]
      cases fit.minimum with
      | error e => rfl
      | ok m =>
          simp only [assignThawed]
          cases (Parameters.assignThawed fit.parameters m.point).2 <;> rfl
  | false =>
      simp only [Bool.false_eq_true, if_false]
      cases fit.startup.minimum with
      | error e => rfl
      | ok m =>
          have hparameters : fit.startup.teardown.parameters = fit.parameters := rfl
          simp only [assignThawed, hparameters]
          cases (Parameters.assignThawed fit.parameters m.point).2 <;> rfl

/-- A minimisation writes nothing but parameters, and starts the model up and tears it down around
itself unless it is told not to. -/
theorem exists_minimise_fst (fit : CurveFit α) (reuse : Bool) :
    ∃ ps, (fit.minimise reuse).1 = (fit.finished reuse).withParameters ps := by
  rw [minimise_eq]
  cases (fit.started reuse).minimum with
  | error e => exact ⟨(fit.finished reuse).parameters, rfl⟩
  | ok m => exact ⟨(Parameters.assignThawed fit.parameters m.point).1, rfl⟩

theorem Coherent.finished {fit : CurveFit α} (h : fit.Coherent) (reuse : Bool) :
    (fit.finished reuse).Coherent := by
  cases reuse with
  | true => exact h
  | false => exact coherent_teardown fit.startup

theorem Reachable.coherent {fit : CurveFit α} (h : fit.Reachable) : fit.Coherent := by
  induction h with
  | made hk =>
      intro errors h
      rw [hk] at h
      cases h
  | parameters ps _ ih => exact ih
  | settings method estimator config _ ih => exact ih
  | @startup fit _ _ => exact coherent_startup fit
  | @teardown fit _ _ => exact coherent_teardown fit
  | @minimise fit reuse _ ih =>
      obtain ⟨ps, hps⟩ := exists_minimise_fst fit reuse
      rw [hps]
      exact ih.finished reuse

/-- The statistic at the thawed values is that of the curve as it is. -/
theorem statAt_thawedValues (fit : CurveFit α) (errors : Option (List α)) :
    fit.statAt errors (Parameters.thawedValues fit.parameters) =
      fit.stat.value fit.data.y fit.modelValues errors := by
  rw [statAt, curveAt, Parameters.substitute_thawedValues]
  rfl

/-- The statistic goes by the values of all parameters, whichever are frozen. -/
theorem calcStat_congr {fit other : CurveFit α} (hdata : fit.data = other.data)
    (hcurve : fit.model.curve = other.model.curve) (hstat : fit.stat = other.stat)
    (herrors : fit.statErrors = other.statErrors)
    (hvalues : fit.parameters.map Parameter.value = other.parameters.map Parameter.value) :
    fit.calcStat = other.calcStat := by
  have hcurves : fit.modelValues = other.modelValues := by
    change fit.data.x.map (fit.model.curve (fit.parameters.map Parameter.value)) = _
    rw [hdata, hcurve, hvalues]
    rfl
  unfold calcStat
  rw [statAt_thawedValues, statAt_thawedValues, hdata, hstat, herrors, hcurves]

end CurveFit

end ParameterScan
