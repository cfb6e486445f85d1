import ParameterScan.Minimize.Restart
import ParameterScan.Proofs.Minimize.Simplex

/-!
# What restarts keep

Each search reports a value at a point of the box, whatever start it was given and whatever numbers
were drawn. The comparisons between searches only go down, so the outcome is no higher than the
first search, which began at the clamped start.
-/
namespace ParameterScan.Restart

variable {α γ : Type} [Scalar α] {f : List α → α} {box : Box α} {n : Nat} {inside : List α → Prop}
  {bound : α}

theorem length_perturb (draw : γ → α × γ) (g : γ) (x : List α) :
    (perturb draw g x).1.length = x.length := by
  induction x generalizing g with
  | nil => rfl
  | cons v vs ih => simp only [perturb, List.length_cons, ih]

variable [Scalar.Ordered α]

open Scalar.Ordered

theorem attained_better {best trial : Minimum α} {other : α} (hbest : best.Attained f inside bound)
    (htrial : trial.Attained f inside other) : (better best trial).Attained f inside bound := by
  unfold better
  simp only
  split_ifs with hlt
  · exact ⟨htrial.contains, htrial.value_eq, le_trans (le_of_lt hlt) hbest.le_bound⟩
  · exact ⟨hbest.contains, hbest.value_eq, hbest.le_bound⟩

theorem attained_polish {best last : Minimum α} {other : α} (hbest : best.Attained f inside bound)
    (hlast : last.Attained f inside other) : (polish best last).Attained f inside bound := by
  unfold polish
  simp only
  split_ifs with hle
  · exact ⟨hlast.contains, hlast.value_eq, le_trans hle hbest.le_bound⟩
  · exact ⟨hbest.contains, hbest.value_eq, hbest.le_bound⟩

theorem attained_restarts (hbox : box.Retains n inside) (cfg : SearchConfig α)
    (draw : γ → α × γ) (k : Nat) (g : γ) {best : Minimum α} (h : best.Attained f inside bound) :
    (restarts f box cfg draw k g best).Attained f inside bound := by
  induction k generalizing g best with
  | zero => exact h
  | succ k ih =>
      have hstart : (perturb draw g best.point).1.length = n := by
        rw [length_perturb]
        exact hbox.length_eq h.contains
      exact ih (perturb draw g best.point).2
        (attained_better h (Simplex.attained_search hbox hstart cfg))

theorem attained_searchWith (hbox : box.Retains n inside) {x0 : List α}
    (hlength : x0.length = n) (cfg : SearchConfig α) (draw : γ → α × γ) (g : γ) :
    (searchWith draw g f x0 box cfg).Attained f inside (Simplex.reading (f (box.clamp x0))) := by
  have hbest := attained_restarts hbox cfg draw cfg.restarts g
    (Simplex.attained_search (f := f) hbox hlength cfg)
  exact attained_polish hbest (Simplex.attained_search hbox (hbox.length_eq hbest.contains) cfg)

end ParameterScan.Restart
