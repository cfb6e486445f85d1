import Mathlib.Algebra.BigOperators.Ring.Finset
import Mathlib.Tactic.FieldSimp
import Mathlib.Tactic.Ring
import ParameterScan.Derivative
import ParameterScan.Proofs.Scalar.Real

/-!
# Second differences

Where a function has a value at every point, its Hessian by central differences is there and each
of its entries is a difference of values at a few points: three for an entry on the diagonal, four
for any other. In exact arithmetic the steps are positive. For a sum of squares of functions that
are affine in each coordinate, the differences do not depend on the point or on the steps, and the
entries are the sums of products of the slopes.
-/
namespace ParameterScan

open scoped Exact

namespace Mat

variable {α β : Type} {m n : ℕ}

@[simp] theorem entry_ofFn (f : Fin m → Fin n → α) (i : Fin m) (j : Fin n) :
    (ofFn f).entry i j = f i j := by
  simp [ofFn, entry]

@[simp] theorem entry_map (f : α → β) (a : Mat α m n) (i : Fin m) (j : Fin n) :
    (a.map f).entry i j = f (a.entry i j) :=
  entry_ofFn _ i j

theorem diagonal_eq (a : Mat α n n) :
    a.diagonal = (List.finRange n).map fun i => a.entry i i := by
  refine List.ext_getElem (by simp [diagonal]) fun i hi _ => ?_
  simp [diagonal]

end Mat

namespace Derivative

section Total

variable {α : Type} [Scalar α]

section Differences

variable (x : List α) (steps : Fin x.length → α) (f : List α → α)

/-- The second difference in one coordinate. -/
def secondDifference (i : Fin x.length) : α :=
  (f (beside x steps i true) - 2 * f x + f (beside x steps i false)) / (steps i * steps i)

/-- The second difference in two coordinates. -/
def mixedDifference (i j : Fin x.length) : α :=
  (f (corner x steps i j true true) - f (corner x steps i j true false) -
    f (corner x steps i j false true) + f (corner x steps i j false false)) /
      (4 * steps i * steps j)

end Differences

theorem mapM_some {τ ρ : Type} (f : τ → ρ) (xs : List τ) :
    xs.mapM (fun x => some (f x)) = some (xs.map f) := by
  induction xs with
  | nil => rfl
  | cons x xs ih => simp [ih]

theorem getD_map_finRange {ρ : Type} {n : ℕ} (f : Fin n → ρ) (i : Fin n) (d : ρ) :
    ((List.finRange n).map f).getD i d = f i := by
  simp [List.getD_eq_getElem?_getD]

/-- The Hessian of a function that has a value everywhere. -/
theorem hessianWith?_total (x : List α) (steps : Fin x.length → α) (f : List α → α) :
    hessianWith? x steps (fun v => some (f v)) = some (Mat.ofFn fun i j =>
      if i = j then secondDifference x steps f i
      else if i < j then mixedDifference x steps f i j else mixedDifference x steps f j i) := by
  have hdiagonal : (List.finRange x.length).mapM
      (curvature? x steps (fun v => some (f v)) (f x)) =
        some ((List.finRange x.length).map (secondDifference x steps f)) := mapM_some _ _
  have hupper : ((List.finRange x.length).mapM fun i =>
      (List.finRange x.length).mapM fun j =>
        if i < j then mixed? x steps (fun v => some (f v)) i j else some 0) =
      some ((List.finRange x.length).map fun i => (List.finRange x.length).map fun j =>
        if i < j then mixedDifference x steps f i j else 0) := by
    rw [← mapM_some]
    refine congrArg (List.mapM · _) (funext fun i => ?_)
    rw [← mapM_some]
    refine congrArg (List.mapM · _) (funext fun j => ?_)
    split_ifs <;> rfl
  simp only [hessianWith?, Option.bind_eq_bind, Option.bind_some, hdiagonal, hupper]
  refine congrArg (fun entries => some (Mat.ofFn entries)) (funext fun i => funext fun j => ?_)
  simp only [getD_map_finRange]
  split_ifs with hij hlt hgt
  · rfl
  · rfl
  · rfl
  · omega

end Total

section Exact

variable {x : List ℝ} {steps : Fin x.length → ℝ} {i j : Fin x.length}

theorem stepOf_pos (x : List ℝ) (i : Fin x.length) : 0 < stepOf x i := by
  have hmagnitude : 0 < max |x[i]| 1 := lt_max_of_lt_right one_pos
  simp only [stepOf, centralStep, relativeStep, Scalar.real_decimal, Scalar.real_one,
    Scalar.real_larger, Scalar.real_abs]
  positivity

theorem beside_eq (x : List ℝ) (steps : Fin x.length → ℝ) (i : Fin x.length) :
    beside x steps i true = x.set i (x[i] + steps i) ∧
      beside x steps i false = x.set i (x[i] - steps i) := ⟨rfl, rfl⟩

/-- Functions that change with each coordinate of a point of the given dimension by a slope of their
own. -/
def Sloped {ι : Type} (r : ι → List ℝ → ℝ) {n : ℕ} (slope : ι → Fin n → ℝ) : Prop :=
  ∀ (k : ι) (v : List ℝ) (hv : v.length = n) (i : Fin n) (a : ℝ),
    r k (v.set i a) = r k v + slope k i * (a - v[i])

variable {ι : Type} [Fintype ι] {r : ι → List ℝ → ℝ} {slope : ι → Fin x.length → ℝ}

theorem secondDifference_sum_sq (hr : Sloped r slope) (hstep : steps i ≠ 0) :
    secondDifference x steps (fun v => ∑ k, r k v ^ 2) i = 2 * ∑ k, slope k i ^ 2 := by
  have hup : ∀ k, r k (beside x steps i true) = r k x + slope k i * steps i := by
    intro k
    rw [(beside_eq x steps i).1, hr k x rfl]
    ring_nf
  have hdown : ∀ k, r k (beside x steps i false) = r k x - slope k i * steps i := by
    intro k
    rw [(beside_eq x steps i).2, hr k x rfl]
    ring_nf
  simp only [secondDifference, hup, hdown]
  rw [div_eq_iff (mul_ne_zero hstep hstep), Finset.mul_sum, ← Finset.sum_sub_distrib,
    ← Finset.sum_add_distrib, Finset.mul_sum, Finset.sum_mul]
  apply Finset.sum_congr rfl
  intro k _
  ring

theorem mixedDifference_sum_sq (hr : Sloped r slope) (hij : i ≠ j) (hstep : steps i ≠ 0)
    (hstep' : steps j ≠ 0) :
    mixedDifference x steps (fun v => ∑ k, r k v ^ 2) i j = 2 * ∑ k, slope k i * slope k j := by
  have hmoved : ∀ k a b, r k ((x.set i (x[i] + a)).set j (x[j] + b)) =
      r k x + slope k i * a + slope k j * b := by
    intro k a b
    have hij' : i.val ≠ j.val := fun h => hij (Fin.ext h)
    have hlt : j.val < (x.set i (x[i] + a)).length := by simp
    have hother : (x.set i (x[i] + a))[j.val] = x[j] := List.getElem_set_ne hij' _
    rw [hr k (x.set i (x[i] + a)) (List.length_set ..) j, hr k x rfl]
    simp only [Fin.getElem_fin] at hother ⊢
    rw [hother]
    ring
  have hcorner : ∀ k aboveI aboveJ, r k (corner x steps i j aboveI aboveJ) =
      r k x + slope k i * (if aboveI then steps i else -steps i) +
        slope k j * (if aboveJ then steps j else -steps j) := by
    intro k aboveI aboveJ
    rw [← hmoved]
    cases aboveI <;> cases aboveJ <;> rfl
  simp only [mixedDifference, hcorner, if_true, Bool.false_eq_true, if_false]
  rw [div_eq_iff (by simpa using ⟨hstep, hstep'⟩), Finset.mul_sum, ← Finset.sum_sub_distrib,
    ← Finset.sum_sub_distrib, ← Finset.sum_add_distrib, Finset.sum_mul]
  apply Finset.sum_congr rfl
  intro k _
  ring

/-- The Hessian of a sum of squares of affine functions is exact. -/
theorem hessian?_sum_sq (hr : Sloped r slope) :
    hessian? (fun v => some (∑ k, r k v ^ 2)) x =
      some (Mat.ofFn fun i j => 2 * ∑ k, slope k i * slope k j) := by
  have hsteps : ∀ i, stepOf x i ≠ 0 := fun i => (stepOf_pos x i).ne'
  rw [hessian?, hessianWith?_total]
  refine congrArg (fun entries => some (Mat.ofFn entries)) (funext fun i => funext fun j => ?_)
  split_ifs with hij hlt
  · subst hij
    rw [secondDifference_sum_sq hr (hsteps i)]
    simp only [sq]
  · exact mixedDifference_sum_sq hr hij (hsteps i) (hsteps j)
  · rw [mixedDifference_sum_sq hr (Ne.symm hij) (hsteps j) (hsteps i)]
    simp only [mul_comm]

end Exact

end Derivative

end ParameterScan
