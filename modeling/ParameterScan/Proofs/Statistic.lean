import Mathlib.Data.List.Forall2
import ParameterScan.Proofs.Scalar.Order

/-!
# Statistics of equal curves

Equal model values give equal statistics, in the sense of `Alike`: the two zeros may be exchanged.
A logarithm is never taken of a zero, so it sees the same number both times, and whether a point is
impossible is a matter of comparisons.
-/
namespace ParameterScan

namespace Scalar

variable {α : Type} [Scalar α] {xs ys : List α}

theorem Alike.refl (a : α) : Alike a a := .inl rfl

variable [Congruent α]

theorem sumSq_alike (h : List.Forall₂ Alike xs ys) : Alike (sumSq xs) (sumSq ys) := by
  have hfold : ∀ s t : α, Alike s t →
      Alike ((xs.map fun x => x * x).foldl (· + ·) s)
        ((ys.map fun y => y * y).foldl (· + ·) t) := by
    induction h with
    | nil => exact fun _ _ hst => hst
    | cons hxy _ ih => exact fun s t hst => ih _ _ (Congruent.add hst (Congruent.mul hxy hxy))
  exact hfold (-0) (-0) (Alike.refl (-0))

variable [Ordered α] {a b c : α}

theorem Alike.larger_eq (h : Alike a b) (hc : 0 < c) : larger a c = larger b c := by
  unfold larger
  have hlt : c < a ↔ c < b := h.lt_iff
  split_ifs with ha hb hb
  · simp only [Bool.or_eq_true, decide_eq_true_eq] at ha
    rcases ha with ha | ha
    · rw [Ordered.isNaN_right (Ordered.le_of_lt hc)] at ha
      cases ha
    · exact Congruent.eq_of_pos h (lt_of_lt_of_le hc (Ordered.le_of_lt ha))
  · simp only [Bool.or_eq_true, decide_eq_true_eq, hlt] at ha hb
    exact absurd ha hb
  · simp only [Bool.or_eq_true, decide_eq_true_eq, hlt] at ha hb
    exact absurd hb ha
  · rfl

end Scalar

namespace Statistic

open Scalar

variable {α : Type} [Scalar α] {model model' : List α}

/-- Where there are residuals, the statistic is their squared length. -/
theorem value_eq_sumSq {stat : Statistic} {data r : List α} {errors : Option (List α)}
    (h : stat.residuals data model errors = some r) : stat.value data model errors = sumSq r := by
  cases stat with
  | chi2 => exact congrArg sumSq (Option.some.inj h)
  | leastSquares => exact congrArg sumSq (Option.some.inj h)
  | cash => cases h
  | cstat => cases h

/-- A contribution that does not tell equal numbers apart. -/
def Respects (term : α → α → α → α) : Prop :=
  ∀ {s t m m' : α} (d : α), Alike s t → Alike m m' → Alike (term s d m) (term t d m')

section Accumulate

variable [Ordered α]

theorem accumulate_alike {term : α → α → α → α} (hterm : Respects term) (data : List α)
    (h : List.Forall₂ Alike model model') {s t : α} (hst : Alike s t) :
    Option.Rel Alike (accumulate term s (data.zip model))
      (accumulate term t (data.zip model')) := by
  induction h generalizing data s t with
  | nil => cases data <;> exact .some hst
  | @cons m m' _ _ hm _ ih =>
      cases data with
      | nil => exact .some hst
      | cons d data =>
          have himpossible : impossible d m = impossible d m' := by
            simp only [impossible, hm.le_iff]
          simp only [List.zip_cons_cons, accumulate, himpossible]
          split_ifs with hd
          · exact .none
          · exact ih data (hterm d hst hm)

end Accumulate

variable [Congruent α]

theorem differences_alike (data : List α) (h : List.Forall₂ Alike model model') :
    List.Forall₂ Alike (List.zipWith (· - ·) data model) (List.zipWith (· - ·) data model') := by
  induction h generalizing data with
  | nil => cases data <;> exact .nil
  | cons hm _ ih =>
      cases data with
      | nil => exact .nil
      | cons d data => exact .cons (Congruent.sub (Alike.refl d) hm) (ih data)

theorem scaledDifferences_alike (data errors : List α) (h : List.Forall₂ Alike model model') :
    List.Forall₂ Alike (scaledDifferences data model errors)
      (scaledDifferences data model' errors) := by
  unfold scaledDifferences
  have hdifferences := differences_alike data h
  generalize List.zipWith (· - ·) data model = ds at hdifferences ⊢
  generalize List.zipWith (· - ·) data model' = ds' at hdifferences ⊢
  induction hdifferences generalizing errors with
  | nil => exact .nil
  | cons hd _ ih =>
      cases errors with
      | nil => exact .nil
      | cons e errors => exact .cons (Congruent.div e hd) (ih errors)

variable [Ordered α]

theorem respects_cashTerm : Respects (cashTerm : α → α → α → α) := by
  intro s t m m' d hst hm
  unfold cashTerm
  rw [hm.larger_eq Congruent.leastModel_pos]
  exact Congruent.add hst (Congruent.sub hm (Alike.refl _))

theorem respects_cstatTerm : Respects (cstatTerm : α → α → α → α) := by
  intro s t m m' d hst hm
  have hshifted := Congruent.add hst (Congruent.sub hm (Alike.refl d))
  unfold cstatTerm
  rw [hm.larger_eq Congruent.leastModel_pos]
  simp only
  split_ifs with hd
  · exact Congruent.add hshifted (Alike.refl _)
  · exact hshifted

theorem likelihood_alike {term : α → α → α → α} (hterm : Respects term) (data : List α)
    (h : List.Forall₂ Alike model model') :
    Alike ((likelihood? term data model).getD infinity)
      ((likelihood? term data model').getD infinity) := by
  have hsums := accumulate_alike hterm data h (Alike.refl 0)
  unfold likelihood?
  generalize accumulate term 0 (data.zip model) = sum at hsums ⊢
  generalize accumulate term 0 (data.zip model') = sum' at hsums ⊢
  cases hsums with
  | none => exact Alike.refl infinity
  | some hsum => exact Congruent.mul (Alike.refl 2) hsum

theorem value_alike (stat : Statistic) (data : List α) (errors : Option (List α))
    (h : List.Forall₂ Alike model model') :
    Alike (stat.value data model errors) (stat.value data model' errors) := by
  cases stat with
  | chi2 => exact sumSq_alike (scaledDifferences_alike data _ h)
  | leastSquares => exact sumSq_alike (differences_alike data h)
  | cash => exact likelihood_alike respects_cashTerm data h
  | cstat => exact likelihood_alike respects_cstatTerm data h

end Statistic

end ParameterScan
