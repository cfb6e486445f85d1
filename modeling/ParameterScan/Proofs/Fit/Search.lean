import Mathlib.Tactic.SplitIfs
import ParameterScan.CurveFit
import ParameterScan.Proofs.Limits
import ParameterScan.Proofs.Minimize.DampedLeastSquares
import ParameterScan.Proofs.Minimize.Restart
import ParameterScan.Proofs.Statistic

/-!
# What the search of a fit finds

The three optimizers see the fit through different functions: two of them through the statistic,
with `NaN` read as infinity, the third through the residuals. The value that they report is the
statistic at the point that they report, as it would be computed again, because only finite values
are let through. It is no higher than the statistic at the clamped start, if that is a number.
-/
namespace ParameterScan

open Scalar (Alike)

variable {α : Type}

theorem CurveFit.length_thawedValues (fit : CurveFit α) :
    (Parameters.thawedValues fit.parameters).length = fit.box.lower.length := by
  simp [Parameters.thawedValues, box]

theorem CurveFit.box_of_rewritten {fit after : CurveFit α}
    (h : List.Forall₂ Parameter.Rewritten fit.parameters after.parameters) :
    after.box = fit.box := by
  have hthawed := Parameters.rewritten_thawed h
  unfold box
  rw [Parameters.map_eq_of_rewritten Parameter.Rewritten.lower_eq hthawed,
    Parameters.map_eq_of_rewritten Parameter.Rewritten.upper_eq hthawed]

variable [Scalar α]

/-- Equal values of the parameters give equal curves: the two zeros are not told apart. -/
def Model.Numeric (m : Model α) : Prop :=
  ∀ values values' : List α, List.Forall₂ Alike values values' →
    ∀ x, Alike (m.curve values x) (m.curve values' x)

theorem Parameters.substitute_alike (ps : List (Parameter α)) {xs ys : List α}
    (h : List.Forall₂ Alike xs ys) :
    List.Forall₂ Alike (substitute ps xs) (substitute ps ys) := by
  induction ps generalizing xs ys with
  | nil => exact .nil
  | cons p ps ih =>
      unfold substitute
      split
      · exact .cons (.refl p.value) (ih h)
      · cases h with
        | nil => exact .cons (.refl p.value) (ih .nil)
        | cons hxy h => exact .cons hxy (ih h)

namespace CurveFit

variable {fit : CurveFit α} {inside : List α → Prop} {m : Minimum α}

theorem closed_box_iff :
    fit.box.Closed ↔
      ∀ p ∈ Parameters.thawed fit.parameters, Box.ClosedRange p.lower p.upper := by
  unfold Box.Closed box
  rw [List.forall₂_map_left_iff, List.forall₂_map_right_iff, List.forall₂_same]

/-- The statistic at the start of a search, which is inside the limits. -/
def startStat (fit : CurveFit α) : α :=
  fit.statAt fit.statErrors (fit.box.clamp (Parameters.thawedValues fit.parameters))

/-- A minimum as a fit reports it, at a point that the search has kept. -/
structure Finds (fit : CurveFit α) (inside : List α → Prop) (m : Minimum α) : Prop where
  contains : inside m.point
  statAt_eq : fit.statAt fit.statErrors m.point = m.value
  isFinite : Scalar.isFinite m.value = true
  le_start : Scalar.isNaN fit.startStat = false → m.value ≤ fit.startStat

/-- The checks around a search, in their order. -/
theorem minimum_eq (fit : CurveFit α) :
    fit.minimum =
      if (Parameters.thawedValues fit.parameters).isEmpty then .error .noThawedParameters
      else
        match fit.search with
        | .error e => .error e
        | .ok m =>
            if !Scalar.isFinite m.value then .error (.nonFiniteStat m.value)
            else if !m.converged then .error (.nonConvergence fit.method m.evaluations)
            else .ok m := by
  unfold minimum
  split_ifs with hempty
  · rfl
  · cases fit.search with
    | error e => rfl
    | ok m =>
        simp only
        split_ifs with hfinite hconverged
        all_goals
          simp [bind, Except.bind, pure, Except.pure, throw, throwThe, MonadExceptOf.throw, *]

theorem search_of_minimum (h : fit.minimum = .ok m) :
    fit.search = .ok m ∧ Scalar.isFinite m.value = true := by
  rw [minimum_eq] at h
  split_ifs at h with hempty
  cases hsearch : fit.search with
  | error e =>
      rw [hsearch] at h
      cases h
  | ok m' =>
      rw [hsearch] at h
      simp only at h
      split_ifs at h with hfinite hconverged
      cases h
      exact ⟨rfl, by simpa using hfinite⟩

/-- The curve at equal thawed values has equal statistics. -/
theorem statAt_alike [Scalar.Ordered α] [Scalar.Congruent α] (hcurve : fit.model.Numeric)
    (errors : Option (List α)) {xs ys : List α} (h : List.Forall₂ Alike xs ys) :
    Alike (fit.statAt errors xs) (fit.statAt errors ys) := by
  refine Statistic.value_alike fit.stat fit.data.y errors ?_
  unfold curveAt Model.valuesAt
  rw [List.forall₂_map_left_iff, List.forall₂_map_right_iff, List.forall₂_same]
  intro x _
  exact hcurve _ _ (Parameters.substitute_alike fit.parameters h) x

theorem statAt_of_residualsAt {errors : Option (List α)} {xs r : List α}
    (h : fit.residualsAt errors xs = some r) : fit.statAt errors xs = Scalar.sumSq r :=
  Statistic.value_eq_sumSq (Option.eq_some_of_filter_eq_some h)

variable [Scalar.Ordered α]

open Scalar.Ordered

/-- A reading that is finite is the statistic itself. -/
theorem finds_of_attained (hfinite : Scalar.isFinite m.value = true)
    (h : m.Attained (fit.statAt fit.statErrors) inside (Simplex.reading fit.startStat)) :
    fit.Finds inside m := by
  refine ⟨h.contains, ?_, hfinite, ?_⟩
  · have hvalue := h.value_eq
    cases hnan : Scalar.isNaN (fit.statAt fit.statErrors m.point) with
    | false =>
        rw [Simplex.reading_eq hnan] at hvalue
        exact hvalue.symm
    | true =>
        rw [hvalue, Simplex.reading, if_pos hnan, isFinite_infinity] at hfinite
        cases hfinite
  · intro hstart
    have hle := h.le_bound
    rwa [Simplex.reading_eq hstart] at hle

theorem finds_of_fitted {r : List α} (hfinite : Scalar.isFinite m.value = true)
    (hr : fit.residualsAt fit.statErrors
      (fit.box.clamp (Parameters.thawedValues fit.parameters)) = some r)
    (h : m.Fitted (fit.residualsAt fit.statErrors) inside (Scalar.sumSq r)) :
    fit.Finds inside m := by
  obtain ⟨r', hr', hvalue⟩ := h.value_eq
  refine ⟨h.contains, ?_, hfinite, ?_⟩
  · rw [statAt_of_residualsAt hr', hvalue]
  · intro _
    rw [startStat, statAt_of_residualsAt hr]
    rcases h.descended with heq | hlt
    · rw [← heq]
      exact Scalar.le_refl_of_not_nan (isNaN_of_isFinite hfinite)
    · exact le_of_lt hlt

theorem finds_of_minimum (hbox : fit.box.Retains fit.box.lower.length inside)
    (h : fit.minimum = .ok m) :
    fit.Finds inside m := by
  obtain ⟨hsearch, hfinite⟩ := search_of_minimum h
  have hlength := length_thawedValues fit
  unfold search at hsearch
  simp only at hsearch
  cases hmethod : fit.method with
  | levmar =>
      simp only [hmethod] at hsearch
      split at hsearch
      · cases hsearch
      · split at hsearch
        next m' hm' =>
          cases hsearch
          obtain ⟨r, hr, hfitted⟩ := DampedLeastSquares.fitted_searchWith
            DampedLeastSquares.even_dampedProposal hbox hlength fit.config hm'
          exact finds_of_fitted hfinite hr hfitted
        next => cases hsearch
  | nelderMead =>
      simp only [hmethod] at hsearch
      cases hsearch
      exact finds_of_attained hfinite (Simplex.attained_search hbox hlength fit.config)
  | monteCarlo =>
      simp only [hmethod] at hsearch
      cases hsearch
      exact finds_of_attained hfinite (Restart.attained_searchWith hbox hlength fit.config _ _)

end CurveFit

end ParameterScan
