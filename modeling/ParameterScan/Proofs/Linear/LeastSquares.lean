import Mathlib.Algebra.BigOperators.Fin
import Mathlib.LinearAlgebra.Matrix.DotProduct
import ParameterScan.Linear.LeastSquares
import ParameterScan.Proofs.Linear.Inverse

/-!
# Least squares from singular triples

In exact arithmetic the inner product of two lists is the sum of the products, in whatever order it
is taken. The decomposition into singular triples is left open: what is taken from it is that the
matrix is the sum of `value · left · rightᵀ` with orthonormal vectors on both sides.

Every solution is finite, so the first threshold is the only one that is used and there is always an
answer. It solves the normal equations up to the triples whose value is not above the threshold: the
part of the right side along their left vectors is left out. The threshold is absolute, so that a
matrix may lose all its triples by a change of scale.
-/
namespace ParameterScan

open scoped Exact Matrix

namespace Linear

section Dot

theorem dotFrom_eq (total : ℝ) (xs ys : List ℝ) :
    dotFrom total xs ys = total + (List.zipWith (· * ·) xs ys).sum := by
  induction xs generalizing total ys with
  | nil => simp [dotFrom]
  | cons x xs ih =>
      cases ys with
      | nil => simp [dotFrom]
      | cons y ys =>
          rw [dotFrom, ih, List.zipWith_cons_cons, List.sum_cons, add_assoc]

theorem dotLanes_eq (s : Lanes ℝ) (xs ys : List ℝ) :
    dotLanes s xs ys = s.total + (List.zipWith (· * ·) xs ys).sum := by
  fun_induction dotLanes s xs ys with
  | case1 s x0 x1 x2 x3 x4 x5 x6 x7 xs y0 y1 y2 y3 y4 y5 y6 y7 ys ih =>
      rw [ih]
      simp only [Lanes.total, List.zipWith_cons_cons, List.sum_cons]
      ring
  | case2 s xs ys _ => exact dotFrom_eq _ _ _

theorem dot_eq_sum (xs ys : List ℝ) : dot xs ys = (List.zipWith (· * ·) xs ys).sum := by
  rw [dot, dotLanes_eq]
  simp [Lanes.total, Lanes.zero]

theorem dot_map (f g : SingularTriple ℝ → ℝ) (triples : List (SingularTriple ℝ)) :
    dot (triples.map f) (triples.map g) =
      ∑ i : Fin triples.length, f triples[i] * g triples[i] := by
  rw [dot_eq_sum, List.zipWith_map, List.zipWith_self]
  exact (Fin.sum_univ_fun_getElem triples fun t => f t * g t).symm

/-- The entries of a list as a vector. -/
def coordinates (n : ℕ) (xs : List ℝ) : Fin n → ℝ := fun i => xs.getD i 0

theorem dot_toList {n : ℕ} {xs : List ℝ} (hlength : xs.length = n) (y : Vector ℝ n) :
    dot xs y.toList = coordinates n xs ⬝ᵥ y.get := by
  have hzip : List.zipWith (· * ·) xs y.toList =
      List.ofFn fun i : Fin n => coordinates n xs i * y.get i := by
    apply List.ext_getElem
    · simp [hlength]
    · intro i hi _
      have hxs : i < xs.length := (lt_min_iff.mp (List.length_zipWith ▸ hi)).1
      simp [coordinates, Vector.get, hxs]
  rw [dot_eq_sum, hzip, List.sum_ofFn]
  rfl

end Dot

variable {m n : ℕ}

section Outer

variable {k : ℕ} (c : Fin k → ℝ) (left : Fin k → Fin m → ℝ) (right : Fin k → Fin n → ℝ)

theorem sum_outer_mulVec (x : Fin n → ℝ) :
    (∑ i, c i • Matrix.vecMulVec (left i) (right i)) *ᵥ x =
      ∑ i, (c i * (right i ⬝ᵥ x)) • left i := by
  rw [Matrix.sum_mulVec]
  apply Finset.sum_congr rfl
  intro i _
  rw [Matrix.smul_mulVec, Matrix.vecMulVec_mulVec, op_smul_eq_smul, smul_smul]

theorem transpose_sum_outer :
    (∑ i, c i • Matrix.vecMulVec (left i) (right i))ᵀ =
      ∑ i, c i • Matrix.vecMulVec (right i) (left i) := by
  rw [Matrix.transpose_sum]
  apply Finset.sum_congr rfl
  intro i _
  rw [Matrix.transpose_smul, Matrix.transpose_vecMulVec]

variable {left}

/-- The component of a combination of orthonormal vectors along one of them. -/
theorem dotProduct_sum_smul
    (h : ∀ i j, left i ⬝ᵥ left j = if i = j then 1 else 0) (j : Fin k) :
    left j ⬝ᵥ ∑ i, c i • left i = c j := by
  simp [dotProduct_sum, h]

end Outer

/-- A decomposition into singular triples. -/
structure Decomposition (a : Mat ℝ m n) (triples : List (SingularTriple ℝ)) : Prop where
  length_left : ∀ t ∈ triples, t.left.length = m
  length_right : ∀ t ∈ triples, t.right.length = n
  nonneg : ∀ t ∈ triples, 0 ≤ t.value
  left_orthonormal : ∀ i j : Fin triples.length,
    coordinates m triples[i].left ⬝ᵥ coordinates m triples[j].left = if i = j then 1 else 0
  right_orthonormal : ∀ i j : Fin triples.length,
    coordinates n triples[i].right ⬝ᵥ coordinates n triples[j].right = if i = j then 1 else 0
  toMatrix_eq : a.toMatrix = ∑ i : Fin triples.length, triples[i].value •
    Matrix.vecMulVec (coordinates m triples[i].left) (coordinates n triples[i].right)

namespace Decomposition

variable {a : Mat ℝ m n} {triples : List (SingularTriple ℝ)} (h : Decomposition a triples)
include h

/-- The component of an image along a left vector. -/
theorem left_dotProduct_mulVec (x : Fin n → ℝ) (j : Fin triples.length) :
    coordinates m triples[j].left ⬝ᵥ (a.toMatrix *ᵥ x) =
      triples[j].value * (coordinates n triples[j].right ⬝ᵥ x) := by
  rw [h.toMatrix_eq, sum_outer_mulVec]
  exact dotProduct_sum_smul _ h.left_orthonormal j

theorem transpose_mulVec (z : Fin m → ℝ) :
    a.toMatrixᵀ *ᵥ z = ∑ i : Fin triples.length,
      (triples[i].value * (coordinates m triples[i].left ⬝ᵥ z)) •
        coordinates n triples[i].right := by
  rw [h.toMatrix_eq, transpose_sum_outer, sum_outer_mulVec]

/-- A transposed image vanishes if its components along the right vectors do. -/
theorem transpose_mulVec_eq_zero_iff (z : Fin m → ℝ) :
    a.toMatrixᵀ *ᵥ z = 0 ↔ ∀ j : Fin triples.length,
      triples[j].value * (coordinates m triples[j].left ⬝ᵥ z) = 0 := by
  constructor
  · intro hzero j
    have hcomponent := dotProduct_sum_smul (fun i : Fin triples.length =>
      triples[i].value * (coordinates m triples[i].left ⬝ᵥ z)) h.right_orthonormal j
    rw [← h.transpose_mulVec, hzero, dotProduct_zero] at hcomponent
    exact hcomponent.symm
  · intro hall
    rw [h.transpose_mulVec]
    apply Finset.sum_eq_zero
    intro i _
    rw [hall i, zero_smul]

/-- A matrix of full column rank has no value of zero. -/
theorem value_pos (hrank : Function.Injective (a.toMatrix *ᵥ ·)) (j : Fin triples.length) :
    0 < triples[j].value := by
  have hnonneg : 0 ≤ triples[j].value := h.nonneg _ (List.getElem_mem _)
  refine hnonneg.lt_of_ne' fun hzero => ?_
  have himage : a.toMatrix *ᵥ coordinates n triples[j].right = 0 := by
    rw [h.toMatrix_eq, sum_outer_mulVec]
    apply Finset.sum_eq_zero
    intro i _
    rw [h.right_orthonormal i j]
    split_ifs with hij
    · rw [hij, hzero, zero_mul, zero_smul]
    · rw [mul_zero, zero_smul]
  have hright : coordinates n triples[j].right = 0 :=
    hrank (himage.trans (Matrix.mulVec_zero _).symm)
  have hone := h.right_orthonormal j j
  rw [hright, zero_dotProduct, if_pos rfl] at hone
  exact zero_ne_one hone

end Decomposition

theorem forall_mem_iff_fin {p : SingularTriple ℝ → Prop} {triples : List (SingularTriple ℝ)} :
    (∀ t ∈ triples, p t) ↔ ∀ j : Fin triples.length, p triples[j] := by
  constructor
  · intro h j
    exact h _ (List.getElem_mem _)
  · intro h t ht
    obtain ⟨i, hi, rfl⟩ := List.mem_iff_getElem.mp ht
    exact h ⟨i, hi⟩

section Solve

variable {a : Mat ℝ m n} {triples : List (SingularTriple ℝ)}

/-- How much of a right vector is in the solution. -/
noncomputable def share (y : Fin m → ℝ) (threshold : ℝ) (t : SingularTriple ℝ) : ℝ :=
  if threshold < t.value then (coordinates m t.left ⬝ᵥ y) / t.value else 0

theorem get_pseudoSolve (hleft : ∀ t ∈ triples, t.left.length = m) (y : Vector ℝ m)
    (threshold : ℝ) :
    (pseudoSolve n triples y.toList threshold).get =
      ∑ i : Fin triples.length, share y.get threshold triples[i] •
        coordinates n triples[i].right := by
  have hparts : (triples.map fun t => if threshold < t.value then dot t.left y.toList / t.value
      else 0) = triples.map (share y.get threshold) := by
    apply List.map_congr_left
    intro t ht
    rw [dot_toList (hleft t ht), share]
  have hentry : ∀ j : Fin n, (pseudoSolve n triples y.toList threshold).get j =
      dot (triples.map fun t => t.right.getD j 0) (triples.map (share y.get threshold)) := by
    intro j
    rw [← hparts, pseudoSolve]
    refine (Vector.getElem_ofFn j.isLt).trans ?_
    simp only [Scalar.real_zero]
  funext j
  rw [hentry, dot_map, Finset.sum_apply]
  apply Finset.sum_congr rfl
  intro i _
  exact mul_comm _ _

/-- The first threshold is the one that is used. -/
theorem leastSquaresWith_eq (y : Vector ℝ m) :
    (leastSquaresWith triples y : Option (Vector ℝ n)) =
      some (pseudoSolve n triples y.toList (1 / 10 ^ 12)) := by
  simp [leastSquaresWith, thresholds]

/-- What the solution leaves of the right side along a left vector. -/
theorem Decomposition.left_dotProduct_remainder (h : Decomposition a triples) (y : Vector ℝ m)
    {threshold : ℝ} (hthreshold : 0 ≤ threshold) (j : Fin triples.length) :
    coordinates m triples[j].left ⬝ᵥ
      (a.toMatrix *ᵥ (pseudoSolve n triples y.toList threshold).get - y.get) =
        if threshold < triples[j].value then 0
        else -(coordinates m triples[j].left ⬝ᵥ y.get) := by
  have hshare := dotProduct_sum_smul (fun i : Fin triples.length =>
    share y.get threshold triples[i]) h.right_orthonormal j
  rw [dotProduct_sub, h.left_dotProduct_mulVec, get_pseudoSolve h.length_left, hshare, share]
  split_ifs with hkept
  · rw [mul_div_cancel₀ _ (hthreshold.trans_lt hkept).ne', sub_self]
  · rw [mul_zero, zero_sub]

end Solve

/-- The normal equations: what is left of the right side is orthogonal to the columns. -/
def Normal (a : Mat ℝ m n) (y : Vector ℝ m) (β : Vector ℝ n) : Prop :=
  a.toMatrixᵀ *ᵥ (a.toMatrix *ᵥ β.get - y.get) = 0

/-- For exact singular triples there is always a solution. If the columns are independent it solves
the normal equations exactly when the right side has no part along the left vector of any triple
whose value is up to the first threshold. -/
theorem leastSquaresWith_normal_iff {a : Mat ℝ m n} {triples : List (SingularTriple ℝ)}
    (h : Decomposition a triples) (hrank : Function.Injective (a.toMatrix *ᵥ ·))
    (y : Vector ℝ m) :
    ∃ β : Vector ℝ n, leastSquaresWith triples y = some β ∧
      (Normal a y β ↔ ∀ t ∈ triples, t.value ≤ 1 / 10 ^ 12 → dot t.left y.toList = 0) ∧
      ((∀ t ∈ triples, 1 / 10 ^ 12 < t.value) → Normal a y β) := by
  have hthreshold : (0 : ℝ) ≤ 1 / 10 ^ 12 := by positivity
  have hiff : Normal a y (pseudoSolve n triples y.toList (1 / 10 ^ 12)) ↔
      ∀ t ∈ triples, t.value ≤ 1 / 10 ^ 12 → dot t.left y.toList = 0 := by
    rw [Normal, h.transpose_mulVec_eq_zero_iff, forall_mem_iff_fin]
    apply forall_congr'
    intro j
    have hdot : dot triples[j].left y.toList = coordinates m triples[j].left ⬝ᵥ y.get :=
      dot_toList (h.length_left _ (List.getElem_mem _)) y
    rw [h.left_dotProduct_remainder y hthreshold, hdot]
    split_ifs with hkept
    · exact iff_of_true (mul_zero _) fun hvalue => absurd hkept (not_lt.mpr hvalue)
    · rw [mul_eq_zero, neg_eq_zero, or_iff_right (h.value_pos hrank j).ne']
      exact ⟨fun hzero _ => hzero, fun hzero => hzero (not_lt.mp hkept)⟩
  refine ⟨_, leastSquaresWith_eq y, hiff, fun hlarge => hiff.mpr fun t ht hvalue => ?_⟩
  exact absurd hvalue (not_le.mpr (hlarge t ht))

/-- A column in the proportion of three to four, at any scale. -/
noncomputable def scaledColumn (scale : ℝ) : Mat ℝ 2 1 := ⟨#v[#v[3 * scale], #v[4 * scale]]⟩

noncomputable def scaledTriple (scale : ℝ) : SingularTriple ℝ := ⟨5 * scale, [3 / 5, 4 / 5], [1]⟩

theorem decomposition_scaledColumn {scale : ℝ} (hscale : 0 ≤ scale) :
    Decomposition (scaledColumn scale) [scaledTriple scale] where
  length_left := by simp [scaledTriple]
  length_right := by simp [scaledTriple]
  nonneg := by simp [scaledTriple, hscale]
  left_orthonormal i j := by
    obtain rfl : i = j := Subsingleton.elim (α := Fin 1) i j
    simp [scaledTriple, coordinates, dotProduct, Fin.sum_univ_two]
    norm_num
  right_orthonormal i j := by
    obtain rfl : i = j := Subsingleton.elim (α := Fin 1) i j
    simp [scaledTriple, coordinates, dotProduct]
  toMatrix_eq := by
    ext i j
    obtain rfl : j = 0 := Subsingleton.elim j 0
    fin_cases i
    · simp [scaledColumn, scaledTriple, Mat.toMatrix, Mat.entry, coordinates, Matrix.vecMulVec]
      ring
    · simp [scaledColumn, scaledTriple, Mat.toMatrix, Mat.entry, coordinates, Matrix.vecMulVec]
      ring

theorem injective_scaledColumn {scale : ℝ} (hscale : 0 < scale) :
    Function.Injective ((scaledColumn scale).toMatrix *ᵥ ·) := by
  intro x y hxy
  have hfirst : 3 * scale * x 0 = 3 * scale * y 0 := by
    simpa [scaledColumn, Mat.toMatrix, Mat.entry, Matrix.mulVec, dotProduct] using congrFun hxy 0
  funext i
  obtain rfl : i = 0 := Subsingleton.elim i 0
  exact mul_left_cancel₀ (by positivity) hfirst

/-- At the scale of one the column is solved for another right side. -/
theorem scaledColumn_solved :
    Decomposition (scaledColumn 1) [scaledTriple 1] ∧
      Function.Injective ((scaledColumn 1).toMatrix *ᵥ ·) ∧ ∃ β : Vector ℝ 1,
        leastSquaresWith [scaledTriple 1] #v[1, 2] = some β ∧
          Normal (scaledColumn 1) #v[1, 2] β := by
  have hdecomposition := decomposition_scaledColumn zero_le_one
  have hrank := injective_scaledColumn one_pos
  obtain ⟨β, hβ, -, hnormal⟩ := leastSquaresWith_normal_iff hdecomposition hrank #v[1, 2]
  refine ⟨hdecomposition, hrank, β, hβ, hnormal ?_⟩
  simp [scaledTriple]
  norm_num

theorem normal_scaledColumn_iff {scale x : ℝ} :
    Normal (scaledColumn scale) #v[3 * scale, 4 * scale] #v[x] ↔ 25 * scale ^ 2 * (x - 1) = 0 := by
  have hentry : ((scaledColumn scale).toMatrixᵀ *ᵥ ((scaledColumn scale).toMatrix *ᵥ
      (#v[x] : Vector ℝ 1).get - (#v[3 * scale, 4 * scale] : Vector ℝ 2).get)) 0 =
        25 * scale ^ 2 * (x - 1) := by
    simp [scaledColumn, Mat.toMatrix, Mat.entry, Matrix.mulVec, dotProduct, Fin.sum_univ_two,
      Vector.get]
    ring
  rw [Normal, ← hentry]
  constructor
  · intro h
    rw [h]
    rfl
  · intro h
    funext i
    obtain rfl : i = 0 := Subsingleton.elim i 0
    exact h

/-- Where the column is scaled down to a length of `5 · 10⁻¹³`, the answer is zero, also for the
column itself as the right side. -/
theorem scaledColumn_not_solved :
    let a := scaledColumn (1 / 10 ^ 13)
    let y : Vector ℝ 2 := #v[3 * (1 / 10 ^ 13), 4 * (1 / 10 ^ 13)]
    Decomposition a [scaledTriple (1 / 10 ^ 13)] ∧ Function.Injective (a.toMatrix *ᵥ ·) ∧
      leastSquaresWith [scaledTriple (1 / 10 ^ 13)] y = some #v[0] ∧ ¬Normal a y #v[0] ∧
        Normal a y #v[1] := by
  intro a y
  have hscale : (0 : ℝ) < 1 / 10 ^ 13 := by positivity
  have hdropped : ¬(1 / 10 ^ 12 : ℝ) < (scaledTriple (1 / 10 ^ 13)).value := by
    rw [scaledTriple]
    norm_num
  refine ⟨decomposition_scaledColumn hscale.le, injective_scaledColumn hscale, ?_, ?_, ?_⟩
  · rw [leastSquaresWith_eq, pseudoSolve]
    simp only [List.map_cons, List.map_nil, if_neg hdropped]
    refine congrArg some (Vector.ext fun i hi => ?_)
    simp [dot_eq_sum]
  · rw [normal_scaledColumn_iff]
    norm_num
  · rw [normal_scaledColumn_iff, sub_self, mul_zero]

end Linear

end ParameterScan
