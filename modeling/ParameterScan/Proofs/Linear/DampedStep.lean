import Mathlib.Algebra.QuadraticDiscriminant
import Mathlib.Data.Matrix.Mul
import Mathlib.LinearAlgebra.Matrix.IsDiag
import ParameterScan.Proofs.Linear.LeastSquares

/-!
# Damped steps

A damped step solves one least-squares problem: the Jacobian on top of its column lengths, weighted
by the root of the damping. What is left of the right side there is the sum of two squares, of the
linearised residuals and of the weighted step. How the problem is solved is left open; what is taken
from it is that the answer is shortest in what it leaves.

In exact arithmetic the step is then the one solution of the damped normal equations. It leads
downhill, and the linearised residuals at it are no longer than those before it. More damping never
makes it longer, in the lengths of the columns. All this holds for a Jacobian of any shape and rank,
because a column of zeros has a length by the floor.
-/
namespace ParameterScan

open scoped Exact Matrix

namespace Linear

variable {m n k : ℕ}

section Length

/-- The Euclidean length of a vector. -/
noncomputable def length (v : Fin k → ℝ) : ℝ := √(v ⬝ᵥ v)

theorem dotProduct_self_nonneg (v : Fin k → ℝ) : 0 ≤ v ⬝ᵥ v :=
  Finset.sum_nonneg fun i _ => mul_self_nonneg (v i)

theorem length_le_length_iff {l : ℕ} {v : Fin k → ℝ} {w : Fin l → ℝ} :
    length v ≤ length w ↔ v ⬝ᵥ v ≤ w ⬝ᵥ w :=
  Real.sqrt_le_sqrt_iff (dotProduct_self_nonneg w)

theorem norm_ofFn (v : Fin k → ℝ) : norm (List.ofFn v) = length v := by
  rw [norm, normSq, dot_eq_sum, List.zipWith_self, List.map_ofFn, List.sum_ofFn]
  rfl

theorem append_dotProduct {l : ℕ} (u u' : Fin k → ℝ) (v v' : Fin l → ℝ) :
    Fin.append u v ⬝ᵥ Fin.append u' v' = u ⬝ᵥ u' + v ⬝ᵥ v' := by
  simp [dotProduct, Fin.sum_univ_add]

end Length

section Minimum

variable {a : Mat ℝ m n} {y : Vector ℝ m} {d : Vector ℝ n}

/-- No vector leaves less of the right side. -/
def Minimises (a : Mat ℝ m n) (y : Vector ℝ m) (d : Vector ℝ n) : Prop :=
  ∀ e : Fin n → ℝ, length (a.toMatrix *ᵥ d.get - y.get) ≤ length (a.toMatrix *ᵥ e - y.get)

theorem transpose_mulVec_dotProduct (A : Matrix (Fin m) (Fin n) ℝ) (z : Fin m → ℝ)
    (e : Fin n → ℝ) : (Aᵀ *ᵥ z) ⬝ᵥ e = z ⬝ᵥ A *ᵥ e := by
  rw [Matrix.mulVec_transpose, Matrix.dotProduct_mulVec]

/-- What a moved vector leaves of the right side. -/
theorem sq_remainder_add (A : Matrix (Fin m) (Fin n) ℝ) (z : Fin m → ℝ) (x e : Fin n → ℝ) :
    (A *ᵥ (x + e) - z) ⬝ᵥ (A *ᵥ (x + e) - z) =
      (A *ᵥ x - z) ⬝ᵥ (A *ᵥ x - z) + 2 * ((Aᵀ *ᵥ (A *ᵥ x - z)) ⬝ᵥ e) + A *ᵥ e ⬝ᵥ A *ᵥ e := by
  have hmoved : A *ᵥ (x + e) - z = (A *ᵥ x - z) + A *ᵥ e := by
    rw [Matrix.mulVec_add]
    abel
  rw [hmoved, transpose_mulVec_dotProduct, add_dotProduct, dotProduct_add, dotProduct_add,
    dotProduct_comm (A *ᵥ e) (A *ᵥ x - z)]
  ring

/-- A parabola through zero that nowhere falls below it does not rise there. -/
theorem slope_eq_zero {a b : ℝ} (h : ∀ t : ℝ, 0 ≤ a * (t * t) + b * t) : b = 0 := by
  have hdiscrim : discrim a b 0 ≤ 0 := discrim_le_zero fun t => by simpa using h t
  rw [discrim, mul_zero, sub_zero] at hdiscrim
  exact pow_eq_zero_iff two_ne_zero |>.mp (le_antisymm hdiscrim (sq_nonneg b))

/-- The least-squares solutions are those of the normal equations. -/
theorem minimises_iff_normal : Minimises a y d ↔ Normal a y d := by
  constructor
  · intro h
    apply dotProduct_eq_zero_iff.mp
    intro e
    have hslope : 2 * ((a.toMatrixᵀ *ᵥ (a.toMatrix *ᵥ d.get - y.get)) ⬝ᵥ e) = 0 := by
      apply slope_eq_zero (a := a.toMatrix *ᵥ e ⬝ᵥ a.toMatrix *ᵥ e)
      intro t
      have hmin := length_le_length_iff.mp (h (d.get + t • e))
      rw [sq_remainder_add, Matrix.mulVec_smul, smul_dotProduct, dotProduct_smul,
        dotProduct_smul] at hmin
      simp only [smul_eq_mul] at hmin
      linarith
    exact (mul_eq_zero_iff_left two_ne_zero).mp hslope
  · intro h e
    rw [length_le_length_iff, ← add_sub_cancel d.get e, sq_remainder_add, h, zero_dotProduct,
      mul_zero, add_zero]
    exact le_add_of_nonneg_right (dotProduct_self_nonneg _)

end Minimum

section Damped

variable {jac : Mat ℝ m n} {resid : Vector ℝ m} {damping : ℝ}

/-- The lengths of the columns, with the floor. -/
noncomputable def scales (jac : Mat ℝ m n) : Matrix (Fin n) (Fin n) ℝ :=
  Matrix.diagonal fun j => max (length fun i => jac.entry i j) (1 / 10 ^ 12)

theorem scales_transpose (jac : Mat ℝ m n) : (scales jac)ᵀ = scales jac :=
  Matrix.diagonal_transpose _

theorem column_eq_ofFn (jac : Mat ℝ m n) (j : Fin n) :
    jac.column j = List.ofFn fun i => jac.entry i j := by
  refine List.ext_getElem (by simp [Mat.column]) fun i hi _ => ?_
  simp [Mat.column, Mat.entry]

theorem columnScale_eq (jac : Mat ℝ m n) (j : Fin n) : columnScale jac j = scales jac j j := by
  rw [columnScale, column_eq_ofFn, norm_ofFn, Scalar.real_larger, Scalar.real_decimal, scales,
    Matrix.diagonal_apply_eq]
  norm_num

/-- The rows of a damped problem are those of the Jacobian and, below them, the weighted lengths. -/
theorem dampedMatrix_castAdd (jac : Mat ℝ m n) (damping : ℝ) (i : Fin m) (j : Fin n) :
    (dampedMatrix jac damping).toMatrix (Fin.castAdd n i) j = jac.toMatrix i j := by
  simp [dampedMatrix, Mat.toMatrix]

theorem dampedMatrix_natAdd (jac : Mat ℝ m n) (hdamping : 0 ≤ damping) (i j : Fin n) :
    (dampedMatrix jac damping).toMatrix (Fin.natAdd m i) j = √damping * scales jac i j := by
  by_cases hij : i = j
  · subst hij
    simp [dampedMatrix, Mat.toMatrix, columnScale_eq, max_eq_left hdamping]
  · have hne : i.val ≠ j.val := fun h => hij (Fin.ext h)
    simp [dampedMatrix, Mat.toMatrix, scales, hij, hne]

theorem dampedMatrix_mulVec (jac : Mat ℝ m n) (hdamping : 0 ≤ damping) (e : Fin n → ℝ) :
    (dampedMatrix jac damping).toMatrix *ᵥ e =
      Fin.append (jac.toMatrix *ᵥ e) (√damping • (scales jac *ᵥ e)) := by
  funext i
  refine Fin.addCases (fun i => ?_) (fun i => ?_) i
  · simp [Matrix.mulVec, dotProduct, dampedMatrix_castAdd]
  · simp [Matrix.mulVec, dotProduct, dampedMatrix_natAdd jac hdamping, Finset.mul_sum, mul_assoc]

theorem transpose_dampedMatrix_mulVec (jac : Mat ℝ m n) (hdamping : 0 ≤ damping) (u : Fin m → ℝ)
    (v : Fin n → ℝ) :
    (dampedMatrix jac damping).toMatrixᵀ *ᵥ Fin.append u v =
      jac.toMatrixᵀ *ᵥ u + √damping • (scales jac *ᵥ v) := by
  have hsymm : ∀ i j, scales jac i j = scales jac j i := by
    intro i j
    rw [← Matrix.transpose_apply (scales jac), scales_transpose]
  funext j
  simp [Matrix.mulVec, dotProduct, Fin.sum_univ_add, dampedMatrix_castAdd,
    dampedMatrix_natAdd jac hdamping, Finset.mul_sum, mul_assoc, hsymm _ j]

theorem dampedTarget_get (resid : Vector ℝ m) :
    (dampedTarget n resid).get = Fin.append (-resid.get) 0 := by
  funext i
  refine Fin.addCases (fun i => ?_) (fun i => ?_) i
  · refine (Vector.getElem_ofFn _).trans ?_
    simp [Vector.get]
  · refine (Vector.getElem_ofFn _).trans ?_
    simp

/-- What a step leaves of the right side: the linearised residuals and the weighted step. -/
theorem damped_remainder (jac : Mat ℝ m n) (resid : Vector ℝ m) (hdamping : 0 ≤ damping)
    (e : Fin n → ℝ) :
    (dampedMatrix jac damping).toMatrix *ᵥ e - (dampedTarget n resid).get =
      Fin.append (jac.toMatrix *ᵥ e + resid.get) (√damping • (scales jac *ᵥ e)) := by
  rw [dampedMatrix_mulVec jac hdamping, dampedTarget_get]
  funext i
  refine Fin.addCases (fun i => ?_) (fun i => ?_) i <;> simp

/-- The linearised residuals and the weighted step, squared. -/
theorem sq_damped_remainder (jac : Mat ℝ m n) (resid : Vector ℝ m) (hdamping : 0 ≤ damping)
    (e : Fin n → ℝ) :
    let left := (dampedMatrix jac damping).toMatrix *ᵥ e - (dampedTarget n resid).get
    left ⬝ᵥ left = (jac.toMatrix *ᵥ e + resid.get) ⬝ᵥ (jac.toMatrix *ᵥ e + resid.get) +
      damping * (scales jac *ᵥ e ⬝ᵥ scales jac *ᵥ e) := by
  simp only [damped_remainder jac resid hdamping]
  rw [append_dotProduct, smul_dotProduct, dotProduct_smul,
    smul_smul, Real.mul_self_sqrt hdamping, smul_eq_mul]

/-- The matrix of the damped normal equations. -/
noncomputable def dampedGram (jac : Mat ℝ m n) (damping : ℝ) : Matrix (Fin n) (Fin n) ℝ :=
  jac.toMatrixᵀ * jac.toMatrix + damping • (scales jac * scales jac)

theorem gram_dampedMatrix (jac : Mat ℝ m n) (hdamping : 0 ≤ damping) :
    (dampedMatrix jac damping).toMatrixᵀ * (dampedMatrix jac damping).toMatrix =
      dampedGram jac damping := by
  apply Matrix.mulVec_injective
  funext e
  rw [← Matrix.mulVec_mulVec, dampedMatrix_mulVec jac hdamping,
    transpose_dampedMatrix_mulVec jac hdamping, Matrix.mulVec_smul, smul_smul,
    Real.mul_self_sqrt hdamping, Matrix.mulVec_mulVec, Matrix.mulVec_mulVec, dampedGram,
    Matrix.add_mulVec, Matrix.smul_mulVec]

theorem normal_damped_iff (hdamping : 0 ≤ damping) (d : Vector ℝ n) :
    Normal (dampedMatrix jac damping) (dampedTarget n resid) d ↔
      dampedGram jac damping *ᵥ d.get = -(jac.toMatrixᵀ *ᵥ resid.get) := by
  rw [Normal, Matrix.mulVec_sub, Matrix.mulVec_mulVec, gram_dampedMatrix jac hdamping,
    dampedTarget_get, transpose_dampedMatrix_mulVec jac hdamping, Matrix.mulVec_zero, smul_zero,
    add_zero, Matrix.mulVec_neg, sub_eq_zero]

theorem dotProduct_dampedGram (jac : Mat ℝ m n) (damping : ℝ) (e : Fin n → ℝ) :
    dampedGram jac damping *ᵥ e ⬝ᵥ e =
      jac.toMatrix *ᵥ e ⬝ᵥ jac.toMatrix *ᵥ e + damping * (scales jac *ᵥ e ⬝ᵥ scales jac *ᵥ e) := by
  have hscales := transpose_mulVec_dotProduct (scales jac) (scales jac *ᵥ e) e
  rw [scales_transpose] at hscales
  rw [dampedGram, Matrix.add_mulVec, Matrix.smul_mulVec, add_dotProduct, smul_dotProduct,
    ← Matrix.mulVec_mulVec, ← Matrix.mulVec_mulVec, transpose_mulVec_dotProduct, hscales,
    smul_eq_mul]

/-- Every column has a length by the floor. -/
theorem scales_mulVec_eq_zero {e : Fin n → ℝ} (h : scales jac *ᵥ e = 0) : e = 0 := by
  funext j
  have hpos : (0 : ℝ) < max (length fun i => jac.entry i j) (1 / 10 ^ 12) :=
    lt_max_of_lt_right (by positivity)
  have hentry := congrFun h j
  rw [scales, Matrix.mulVec_diagonal] at hentry
  exact (mul_eq_zero_iff_left hpos.ne').mp hentry

/-- The damped normal equations have positive definite form. -/
theorem dampedGram_pos (jac : Mat ℝ m n) (hdamping : 0 < damping) {e : Fin n → ℝ} (he : e ≠ 0) :
    0 < dampedGram jac damping *ᵥ e ⬝ᵥ e := by
  rw [dotProduct_dampedGram]
  have hscaled : scales jac *ᵥ e ⬝ᵥ scales jac *ᵥ e ≠ 0 :=
    fun hzero => he (scales_mulVec_eq_zero (dotProduct_self_eq_zero.mp hzero))
  have hpos := (dotProduct_self_nonneg (scales jac *ᵥ e)).lt_of_ne' hscaled
  exact add_pos_of_nonneg_of_pos (dotProduct_self_nonneg _) (mul_pos hdamping hpos)

theorem dampedGram_injective (jac : Mat ℝ m n) (hdamping : 0 < damping) {d e : Fin n → ℝ}
    (h : dampedGram jac damping *ᵥ d = dampedGram jac damping *ᵥ e) : d = e := by
  by_contra hne
  have hpos := dampedGram_pos jac hdamping (sub_ne_zero.mpr hne)
  rw [Matrix.mulVec_sub, h, sub_self, zero_dotProduct] at hpos
  exact hpos.false

/-- A solution of the damped normal equations leads against the gradient. -/
theorem descends_of_gram (hdamping : 0 < damping) {g d : Fin n → ℝ}
    (hd : dampedGram jac damping *ᵥ d = -g) : (g ≠ 0 → g ⬝ᵥ d < 0) ∧ (g = 0 → d = 0) := by
  constructor
  · intro hg
    have hne : d ≠ 0 := by
      rintro rfl
      rw [Matrix.mulVec_zero] at hd
      exact hg (neg_eq_zero.mp hd.symm)
    have hpos := dampedGram_pos jac hdamping hne
    rw [hd, neg_dotProduct] at hpos
    exact neg_pos.mp hpos
  · rintro rfl
    apply dampedGram_injective jac hdamping
    rw [hd, neg_zero, Matrix.mulVec_zero]

section Costs

variable {d : Vector ℝ n}

/-- No other step has a lower cost: linearised residuals and damped length. -/
theorem cost_le (hdamping : 0 ≤ damping)
    (h : Minimises (dampedMatrix jac damping) (dampedTarget n resid) d) (e : Fin n → ℝ) :
    (jac.toMatrix *ᵥ d.get + resid.get) ⬝ᵥ (jac.toMatrix *ᵥ d.get + resid.get) +
        damping * (scales jac *ᵥ d.get ⬝ᵥ scales jac *ᵥ d.get) ≤
      (jac.toMatrix *ᵥ e + resid.get) ⬝ᵥ (jac.toMatrix *ᵥ e + resid.get) +
        damping * (scales jac *ᵥ e ⬝ᵥ scales jac *ᵥ e) := by
  have hmin := length_le_length_iff.mp (h e)
  rwa [sq_damped_remainder jac resid hdamping, sq_damped_remainder jac resid hdamping] at hmin

/-- The linearised residuals do not grow. -/
theorem length_linearised_le (hdamping : 0 ≤ damping)
    (h : Minimises (dampedMatrix jac damping) (dampedTarget n resid) d) :
    length (jac.toMatrix *ᵥ d.get + resid.get) ≤ length resid.get := by
  have hcost := cost_le hdamping h 0
  have hlength := mul_nonneg hdamping (dotProduct_self_nonneg (scales jac *ᵥ d.get))
  rw [Matrix.mulVec_zero, Matrix.mulVec_zero, zero_add, zero_dotProduct, mul_zero,
    add_zero] at hcost
  exact length_le_length_iff.mpr (by linarith)

/-- Of two steps the one by more damping is no longer: neither costs less by the damping of the
other one. -/
theorem length_scaled_le {more : ℝ} {e : Vector ℝ n} (hdamping : 0 ≤ damping)
    (hmore : damping < more)
    (hd : Minimises (dampedMatrix jac damping) (dampedTarget n resid) d)
    (he : Minimises (dampedMatrix jac more) (dampedTarget n resid) e) :
    length (scales jac *ᵥ e.get) ≤ length (scales jac *ᵥ d.get) := by
  have hless := cost_le hdamping hd e.get
  have hgreater := cost_le (hdamping.trans hmore.le) he d.get
  rw [length_le_length_iff]
  by_contra hlonger
  have hproduct := mul_pos (sub_pos.mpr hmore) (sub_pos.mpr (not_le.mp hlonger))
  linarith

end Costs

end Damped

/-- If the least-squares problem of every damping is solved, then in exact arithmetic, for a
Jacobian of any shape and rank, each damped step is the one solution of the damped normal equations.
It leads downhill unless the gradient vanishes, and then it is zero; the linearised residuals at it
are no longer than before; and it is no longer by more damping, in the lengths of the columns. -/
theorem dampedStep_descends {solve : Mat ℝ (m + n) n → Vector ℝ (m + n) → Option (Vector ℝ n)}
    (jac : Mat ℝ m n) (resid : Vector ℝ m)
    (hsolve : ∀ damping > 0, ∃ d, solve (dampedMatrix jac damping) (dampedTarget n resid) = some d ∧
      Minimises (dampedMatrix jac damping) (dampedTarget n resid) d) :
    let gradient := jac.toMatrixᵀ *ᵥ resid.get
    ∀ damping > 0, ∃ d, dampedStepWith solve jac resid damping = some d ∧
      (∀ e, dampedGram jac damping *ᵥ e = -gradient ↔ e = d.get) ∧
      (gradient ≠ 0 → gradient ⬝ᵥ d.get < 0) ∧ (gradient = 0 → d.get = 0) ∧
      length (jac.toMatrix *ᵥ d.get + resid.get) ≤ length resid.get ∧
      ∀ more ≥ damping, ∃ e, dampedStepWith solve jac resid more = some e ∧
        length (scales jac *ᵥ e.get) ≤ length (scales jac *ᵥ d.get) := by
  intro gradient damping hdamping
  obtain ⟨d, hd, hmin⟩ := hsolve damping hdamping
  have hgram : dampedGram jac damping *ᵥ d.get = -gradient :=
    (normal_damped_iff hdamping.le d).mp (minimises_iff_normal.mp hmin)
  obtain ⟨hdown, hzero⟩ := descends_of_gram hdamping hgram
  refine ⟨d, hd, fun e => ⟨fun he => ?_, fun he => he ▸ hgram⟩, hdown, hzero,
    length_linearised_le hdamping.le hmin, fun more hmore => ?_⟩
  · exact dampedGram_injective jac hdamping (he.trans hgram.symm)
  · rcases hmore.lt_or_eq with hlt | rfl
    · obtain ⟨e, he, hmin'⟩ := hsolve more (hdamping.trans hlt)
      exact ⟨e, he, length_scaled_le hdamping.le hlt hmin hmin'⟩
    · exact ⟨d, hd, le_rfl⟩

/-- The solution one column at a time, for columns that are orthogonal to each other. -/
noncomputable def columnwise (a : Mat ℝ m n) (y : Vector ℝ m) : Option (Vector ℝ n) :=
  some (Vector.ofFn fun j => (a.toMatrixᵀ *ᵥ y.get) j / (a.toMatrixᵀ * a.toMatrix) j j)

theorem exists_columnwise_minimises {a : Mat ℝ m n} (hdiag : (a.toMatrixᵀ * a.toMatrix).IsDiag)
    (hcolumns : ∀ j, (a.toMatrixᵀ * a.toMatrix) j j ≠ 0) (y : Vector ℝ m) :
    ∃ d, columnwise a y = some d ∧ Minimises a y d := by
  refine ⟨_, rfl, minimises_iff_normal.mpr ?_⟩
  rw [Normal, Matrix.mulVec_sub, Matrix.mulVec_mulVec, sub_eq_zero]
  nth_rewrite 1 [← hdiag.diagonal_diag]
  funext j
  rw [Matrix.mulVec_diagonal, Matrix.diag_apply]
  exact (congrArg _ (Vector.getElem_ofFn j.isLt)).trans (mul_div_cancel₀ _ (hcolumns j))

/-- A Jacobian of rank one: its second column is zero. -/
noncomputable def flatSecond : Mat ℝ 2 2 := ⟨#v[#v[3, 0], #v[4, 0]]⟩

theorem scales_flatSecond : scales flatSecond = Matrix.diagonal ![5, 1 / 10 ^ 12] := by
  have hfirst : √(3 * 3 + 4 * 4) = (5 : ℝ) := by
    rw [Real.sqrt_eq_iff_mul_self_eq (by positivity) (by positivity)]
    norm_num
  rw [scales, Matrix.diagonal_eq_diagonal_iff, Fin.forall_fin_two]
  simp [flatSecond, Mat.entry, length, dotProduct, Fin.sum_univ_two, hfirst]
  norm_num

theorem dampedGram_flatSecond (damping : ℝ) :
    dampedGram flatSecond damping =
      Matrix.diagonal ![25 + damping * 25, damping * (1 / 10 ^ 12 * (1 / 10 ^ 12))] := by
  rw [dampedGram, scales_flatSecond, Matrix.diagonal_mul_diagonal]
  ext i j
  fin_cases i <;> fin_cases j <;>
    simp [flatSecond, Mat.toMatrix, Mat.entry, Matrix.mul_apply, Fin.sum_univ_two]
  norm_num

theorem columnwise_flatSecond {damping : ℝ} (hdamping : 0 < damping) (resid : Vector ℝ 2) :
    ∃ d, columnwise (dampedMatrix flatSecond damping) (dampedTarget 2 resid) = some d ∧
      Minimises (dampedMatrix flatSecond damping) (dampedTarget 2 resid) d := by
  have hgram := (gram_dampedMatrix flatSecond hdamping.le).trans (dampedGram_flatSecond damping)
  apply exists_columnwise_minimises
  · rw [hgram]
    exact Matrix.isDiag_diagonal _
  · rw [hgram, Fin.forall_fin_two]
    constructor
    · rw [Matrix.diagonal_apply_eq]
      simp
      positivity
    · rw [Matrix.diagonal_apply_eq]
      simp [hdamping.ne']

/-- The steps for a damping of one and of three do not move the second coordinate. -/
theorem flatSecond_descends :
    let resid : Vector ℝ 2 := #v[1, 2]
    let gradient := flatSecond.toMatrixᵀ *ᵥ resid.get
    (∀ damping > 0, ∃ d,
      columnwise (dampedMatrix flatSecond damping) (dampedTarget 2 resid) = some d ∧
        Minimises (dampedMatrix flatSecond damping) (dampedTarget 2 resid) d) ∧
      gradient = ![11, 0] ∧ ∃ d e, dampedStepWith columnwise flatSecond resid 1 = some d ∧
        dampedStepWith columnwise flatSecond resid 3 = some e ∧
        d.get = ![-11 / 50, 0] ∧ gradient ⬝ᵥ d.get < 0 ∧
        length (flatSecond.toMatrix *ᵥ d.get + resid.get) ≤ length resid.get ∧
        length (scales flatSecond *ᵥ e.get) ≤ length (scales flatSecond *ᵥ d.get) := by
  intro resid gradient
  have hsolve := fun damping (hdamping : damping > 0) => columnwise_flatSecond hdamping resid
  have hgradient : gradient = ![11, 0] := by
    funext j
    simp only [gradient, Matrix.mulVec, dotProduct, Fin.sum_univ_two]
    fin_cases j
    · simp [resid, flatSecond, Mat.toMatrix, Mat.entry, Vector.get]
      norm_num
    · simp [flatSecond, Mat.toMatrix, Mat.entry]
  have hnonzero : gradient ≠ 0 := fun hzero => by simpa [hgradient] using congrFun hzero 0
  obtain ⟨d, hd, honly, hdown, -, hresid, hmore⟩ :=
    dampedStep_descends flatSecond resid hsolve 1 one_pos
  obtain ⟨e, he, hshorter⟩ := hmore 3 (by norm_num)
  have hgram : dampedGram flatSecond 1 *ᵥ ![-11 / 50, 0] = -gradient := by
    rw [hgradient, dampedGram_flatSecond]
    funext j
    rw [Matrix.mulVec_diagonal]
    fin_cases j
    · simp
      norm_num
    · simp
  exact ⟨hsolve, hgradient, d, e, hd, he, ((honly _).mp hgram).symm, hdown hnonzero, hresid,
    hshorter⟩

end Linear

end ParameterScan
