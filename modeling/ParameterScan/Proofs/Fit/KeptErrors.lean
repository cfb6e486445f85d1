import ParameterScan.Proofs.Fit.Reachable

/-!
# Kept errors do not show

A fit whose kept errors are the effective ones answers as it would without keeping any: the
statistic, a minimisation, the estimates by either method. Each answer goes through `statErrors`,
directly or in a fit with other parameters, so it is the answer of the fit with nothing kept and no
startups counted (`bare`). What a minimisation leaves is the same up to these two fields.
-/
namespace ParameterScan.CurveFit

variable {α : Type}

/-- The fit with no errors kept and with nothing counted. -/
def bare (fit : CurveFit α) : CurveFit α := { fit with keptErrors := none, lifecycle := {} }

@[simp]
theorem bare_withParameters (fit : CurveFit α) (ps : List (Parameter α)) :
    (fit.withParameters ps).bare = fit.bare.withParameters ps := rfl

@[simp]
theorem bare_teardown (fit : CurveFit α) : fit.teardown.bare = fit.bare := rfl

variable [Scalar α] {fit : CurveFit α}

@[simp]
theorem bare_startup (fit : CurveFit α) : fit.startup.bare = fit.bare := rfl

theorem coherent_bare (fit : CurveFit α) : fit.bare.Coherent := fun _ hkept => nomatch hkept

theorem bare_started (reuse : Bool) : (fit.started reuse).bare = fit.bare := by
  cases reuse <;> rfl

theorem bare_finished (reuse : Bool) : (fit.finished reuse).bare = fit.bare := by
  cases reuse <;> rfl

namespace Coherent

theorem withParameters (h : fit.Coherent) (ps : List (Parameter α)) :
    (fit.withParameters ps).Coherent := h

theorem started (h : fit.Coherent) (reuse : Bool) : (fit.started reuse).Coherent := by
  cases reuse with
  | true => exact h
  | false => exact coherent_startup fit

theorem statErrors_bare (h : fit.Coherent) : fit.bare.statErrors = fit.statErrors :=
  h.statErrors.symm

theorem calcStat_bare (h : fit.Coherent) : fit.bare.calcStat = fit.calcStat := by
  unfold calcStat
  rw [h.statErrors_bare]
  rfl

theorem search_bare (h : fit.Coherent) : fit.bare.search = fit.search := by
  unfold search
  rw [h.statErrors_bare]
  rfl

theorem minimum_bare (h : fit.Coherent) : fit.bare.minimum = fit.minimum := by
  unfold minimum
  rw [h.search_bare]
  rfl

theorem deviations_bare (h : fit.Coherent) : fit.bare.deviations = fit.deviations := by
  unfold deviations deviationsWith
  rw [h.statErrors_bare]
  rfl

theorem covarianceErrors_bare (h : fit.Coherent) :
    fit.bare.covarianceErrors = fit.covarianceErrors := by
  unfold covarianceErrors
  rw [h.deviations_bare]
  rfl

theorem profile_bare (h : fit.Coherent) (i : Nat) (x : α) :
    fit.bare.profile i x = fit.profile i x := by
  have hpinned : (fit.pinned i x).Coherent := h.withParameters _
  have hbare : fit.bare.pinned i x = (fit.pinned i x).bare := rfl
  unfold profile
  simp only
  rw [hbare, hpinned.calcStat_bare, hpinned.minimum_bare]
  rfl

theorem confidenceBounds_bare (h : fit.Coherent) (level : α) (i : Nat) (p : Parameter α)
    (sigma : Option α) :
    fit.bare.confidenceBounds level i p sigma = fit.confidenceBounds level i p sigma := by
  have hprofile : fit.bare.profile i = fit.profile i := funext (h.profile_bare i)
  unfold confidenceBounds
  rw [hprofile]

theorem confidenceErrors_bare (h : fit.Coherent) :
    fit.bare.confidenceErrors = fit.confidenceErrors := by
  have hbounds : fit.bare.confidenceBounds = fit.confidenceBounds := by
    funext level i p sigma
    exact h.confidenceBounds_bare level i p sigma
  unfold confidenceErrors
  rw [h.calcStat_bare, h.deviations_bare, hbounds]
  rfl

theorem estimateErrors_bare (h : fit.Coherent) : fit.bare.estimateErrors = fit.estimateErrors := by
  have hestimator : fit.bare.estimator = fit.estimator := rfl
  unfold estimateErrors
  rw [hestimator, h.covarianceErrors_bare, h.confidenceErrors_bare]

theorem minimum_started (h : fit.Coherent) (reuse : Bool) :
    (fit.started reuse).minimum = fit.bare.minimum := by
  rw [← (h.started reuse).minimum_bare, bare_started]

/-- A minimisation has the same outcome and ends at the same parameters. -/
theorem minimise_bare (h : fit.Coherent) (reuse : Bool) :
    (fit.bare.minimise reuse).2 = (fit.minimise reuse).2 ∧
      (fit.bare.minimise reuse).1.bare = (fit.minimise reuse).1.bare := by
  rw [minimise_eq, minimise_eq, h.minimum_started, (coherent_bare fit).minimum_started]
  have htwice : fit.bare.bare = fit.bare := rfl
  rw [htwice]
  cases fit.bare.minimum with
  | error e => exact ⟨rfl, by rw [bare_finished, bare_finished]; rfl⟩
  | ok m =>
      refine ⟨rfl, ?_⟩
      simp only [bare_withParameters, bare_finished]
      rfl

end Coherent

end ParameterScan.CurveFit
