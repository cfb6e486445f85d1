import Mathlib.LinearAlgebra.Matrix.Determinant.Basic
import Mathlib.LinearAlgebra.Matrix.NonsingularInverse
import ParameterScan.Linear.Inverse
import ParameterScan.Proofs.Derivative

/-!
# Exact inverses

An inversion is exact when it finds the inverse of every matrix that has one and fails for every
other matrix. It is enough that what it finds is a right inverse and that it fails for no matrix
that has an inverse. In exact arithmetic the inversion of a matrix of one row, and that of two rows
by cofactors, is exact.
-/
namespace ParameterScan

open scoped Exact

/-- The entries as a matrix of Mathlib. -/
def Mat.toMatrix {α : Type} {m n : ℕ} (a : Mat α m n) : Matrix (Fin m) (Fin n) α :=
  Matrix.of a.entry

namespace Linear

theorem toMatrix_ofFn {α : Type} {m n : ℕ} (f : Fin m → Fin n → α) :
    (Mat.ofFn f).toMatrix = Matrix.of f :=
  congrArg Matrix.of (funext fun i => funext fun j => Mat.entry_ofFn f i j)

variable {n : ℕ} {inverse : Mat ℝ n n → Option (Mat ℝ n n)}

/-- An inversion that finds the inverse of a square matrix exactly when it has one. -/
def Exact (inverse : Mat ℝ n n → Option (Mat ℝ n n)) : Prop :=
  ∀ a b : Mat ℝ n n, inverse a = some b ↔ a.toMatrix * b.toMatrix = 1

theorem Exact.eq_inv (h : Exact inverse) {a b : Mat ℝ n n} (hb : inverse a = some b) :
    IsUnit a.toMatrix ∧ b.toMatrix = a.toMatrix⁻¹ := by
  have hmul := (h a b).mp hb
  exact ⟨IsUnit.of_mul_eq_one _ hmul, (Matrix.inv_eq_right_inv hmul).symm⟩

theorem Exact.not_isUnit (h : Exact inverse) {a : Mat ℝ n n} (hnone : inverse a = none) :
    ¬IsUnit a.toMatrix := by
  intro hunit
  have hinverse := (h a (Mat.ofFn fun i j => a.toMatrix⁻¹ i j)).mpr <| by
    rw [toMatrix_ofFn]
    exact Matrix.mul_nonsing_inv _ ((Matrix.isUnit_iff_isUnit_det _).mp hunit)
  rw [hnone] at hinverse
  cases hinverse

theorem toMatrix_injective {α : Type} {m n : ℕ} {a b : Mat α m n}
    (h : a.toMatrix = b.toMatrix) : a = b := by
  obtain ⟨rows⟩ := a
  obtain ⟨rows'⟩ := b
  refine congrArg Mat.mk (Vector.ext fun i hi => Vector.ext fun j hj => ?_)
  exact congrFun (congrFun h ⟨i, hi⟩) ⟨j, hj⟩

theorem exact_of_right_inverse
    (hsome : ∀ a b : Mat ℝ n n, inverse a = some b → a.toMatrix * b.toMatrix = 1)
    (hnone : ∀ a : Mat ℝ n n, inverse a = none → ¬IsUnit a.toMatrix) : Exact inverse := by
  refine fun a b => ⟨hsome a b, fun hmul => ?_⟩
  cases hfound : inverse a with
  | none => exact absurd (IsUnit.of_mul_eq_one _ hmul) (hnone a hfound)
  | some c =>
      have hc := Matrix.inv_eq_right_inv (hsome a c hfound)
      rw [Matrix.inv_eq_right_inv hmul] at hc
      rw [toMatrix_injective hc]

theorem exact_inverseOne? : Exact (@inverseOne? ℝ _) := by
  refine exact_of_right_inverse (fun a b h => ?_) fun a h => ?_
  all_goals
    simp only [inverseOne?, Scalar.real_beq, Scalar.real_zero, decide_eq_true_eq] at h
    split_ifs at h with hdet
  · obtain rfl := Option.some.inj h
    rw [toMatrix_ofFn]
    ext i j
    obtain ⟨rfl, rfl⟩ : i = 0 ∧ j = 0 := ⟨Subsingleton.elim i 0, Subsingleton.elim j 0⟩
    simp [Matrix.mul_apply, Mat.toMatrix, hdet]
  · rw [Matrix.isUnit_iff_isUnit_det, Matrix.det_fin_one]
    simp [Mat.toMatrix, hdet]

theorem toMatrix_two (a : Mat ℝ 2 2) :
    a.toMatrix = !![a.entry 0 0, a.entry 0 1; a.entry 1 0, a.entry 1 1] := by
  ext i j
  fin_cases i <;> fin_cases j <;> rfl

theorem mul_cofactors {a b c d : ℝ} (hdet : a * d - c * b ≠ 0) :
    !![a, b; c, d] * !![d / (a * d - c * b), -b / (a * d - c * b);
      -c / (a * d - c * b), a / (a * d - c * b)] = 1 := by
  rw [Matrix.mul_fin_two, Matrix.one_fin_two]
  congr 1
  ext i j
  fin_cases i <;> fin_cases j <;> simp <;> field_simp <;> ring

theorem exact_inverseTwo? : Exact (@inverseTwo? ℝ _) := by
  refine exact_of_right_inverse (fun a b h => ?_) fun a h => ?_
  all_goals
    simp only [inverseTwo?, Scalar.real_beq, Scalar.real_zero, decide_eq_true_eq] at h
    split_ifs at h with hdet
  · obtain rfl := Option.some.inj h
    rw [toMatrix_two, toMatrix_two]
    exact mul_cofactors hdet
  · rw [Matrix.isUnit_iff_isUnit_det, toMatrix_two, Matrix.det_fin_two_of, mul_comm (a.entry 0 1),
      hdet]
    exact not_isUnit_zero

end Linear

end ParameterScan
