import Mathlib.Algebra.Order.Star.Real
import Mathlib.Analysis.Matrix.Order
import ParameterScan.Proofs.Fit.Estimate
import ParameterScan.Proofs.Linear.Inverse

/-!
# Covariance of a linear problem

A curve that is affine in its parameters at each coordinate of the data, compared with the data by
chi-square, is a linear problem: the statistic is a sum of squares of affine functions of the thawed
values. Its design matrix `J` has the slopes of the thawed parameters, its weights `W` the inverse
squares of the errors. In exact arithmetic the Hessian by finite differences is twice `Jᵀ W J`,
whatever the steps, and the deviations are the roots of the diagonal of the inverse of `Jᵀ W J`.

Neither the values of the parameters nor the limits enter, and the frozen parameters only by being
left out. The inversion is left open: what is taken from it is that it is exact at the size of the
problem.
-/
namespace ParameterScan

open scoped Exact

namespace Parameters

variable {α : Type}

theorem length_substitute (ps : List (Parameter α)) (xs : List α) :
    (substitute ps xs).length = ps.length := by
  fun_induction substitute ps xs <;> simp_all

/-- A thawed value is put at the place of its parameter. -/
theorem substitute_set {ps : List (Parameter α)} {xs : List α} {i place : ℕ}
    (hlength : xs.length = thawedCount ps) (hplace : (thawedIndices ps)[i]? = some place) (a : α) :
    substitute ps (xs.set i a) = (substitute ps xs).set place a ∧
      (substitute ps xs)[place]? = xs[i]? := by
  induction ps generalizing xs i place with
  | nil => simp [thawedIndices] at hplace
  | cons p ps ih =>
      rw [thawedIndices_cons] at hplace
      cases hp : p.frozen with
      | true =>
          rw [thawedCount_cons_frozen hp] at hlength
          simp only [hp, if_true, List.nil_append, List.getElem?_map,
            Option.map_eq_some_iff] at hplace
          obtain ⟨place, hplace, rfl⟩ := hplace
          obtain ⟨hset, hget⟩ := ih hlength hplace
          simp [substitute, hp, hset, hget]
      | false =>
          rw [thawedCount_cons_thawed hp] at hlength
          obtain ⟨x, xs, rfl⟩ := List.exists_cons_of_length_eq_add_one hlength
          cases i with
          | zero =>
              obtain rfl : 0 = place := by simpa [hp] using hplace
              simp [substitute, hp]
          | succ i =>
              simp only [hp, Bool.false_eq_true, if_false, List.singleton_append,
                List.getElem?_cons_succ, List.getElem?_map, Option.map_eq_some_iff] at hplace
              obtain ⟨place, hplace, rfl⟩ := hplace
              obtain ⟨hset, hget⟩ := ih (Nat.succ.inj hlength) hplace
              simp [substitute, hp, hset, hget]

end Parameters

/-- A point of the data with its error. -/
structure Observation where
  x : ℝ
  y : ℝ
  error : ℝ

/-- The points of a dataset, as far as all its lists go. -/
def Dataset.observations (d : Dataset ℝ) (errors : List ℝ) : List Observation :=
  List.zipWith (fun point e => ⟨point.1, point.2, e⟩) (d.x.zip d.y) errors

section Problem

variable (slope : ℝ → ℕ → ℝ) (points : List Observation) (places : List ℕ)

/-- The slopes at the points, by the places of the parameters. -/
noncomputable def designMatrix : Matrix (Fin points.length) (Fin places.length) ℝ :=
  .of fun k i => slope points[k].x places[i]

noncomputable def weights : Matrix (Fin points.length) (Fin points.length) ℝ :=
  .diagonal fun k => 1 / points[k].error ^ 2

/-- The matrix `Jᵀ W J`. -/
noncomputable def information : Matrix (Fin places.length) (Fin places.length) ℝ :=
  (designMatrix slope points places).transpose * weights points * designMatrix slope points places

theorem information_apply (i j : Fin places.length) :
    information slope points places i j =
      ∑ k : Fin points.length, slope points[k].x places[i] / points[k].error *
        (slope points[k].x places[j] / points[k].error) := by
  rw [information, Matrix.mul_apply]
  apply Finset.sum_congr rfl
  intro k _
  rw [weights, Matrix.mul_diagonal, Matrix.transpose_apply]
  simp only [designMatrix, Matrix.of_apply]
  ring

theorem posSemidef_information : (information slope points places).PosSemidef := by
  have hweights : (weights points).PosSemidef :=
    Matrix.PosSemidef.diagonal fun k => by positivity
  exact hweights.conjTranspose_mul_mul_same (designMatrix slope points places)

/-- Where there is an inverse, its diagonal is positive. -/
theorem information_inv_pos (h : IsUnit (information slope points places))
    (i : Fin places.length) : 0 < (information slope points places)⁻¹ i i :=
  (((posSemidef_information slope points places).posDef_iff_isUnit.mpr h).inv).diag_pos

end Problem

namespace CurveFit

/-- At each coordinate of the data the curve is affine in the values of the parameters. -/
def Affine (fit : CurveFit ℝ) (constant : ℝ → ℝ) (slope : ℝ → ℕ → ℝ) : Prop :=
  ∀ x ∈ fit.data.x, ∀ values : List ℝ, values.length = fit.parameters.length →
    fit.model.curve values x = constant x + (values.mapIdx fun j v => slope x j * v).sum

/-- The errors by covariance with a given inversion. -/
noncomputable def covarianceErrorsWith (inverse : {n : ℕ} → Mat ℝ n n → Option (Mat ℝ n n))
    (fit : CurveFit ℝ) : Except (FitError ℝ) (ErrorEstimate ℝ) :=
  (fit.deviationsWith inverse).map fit.symmetricEstimate

theorem covarianceErrorsWith_inverse? (fit : CurveFit ℝ) :
    fit.covarianceErrorsWith Linear.inverse? = fit.covarianceErrors := rfl

/-- The difference of data and curve at a point, in units of its error. -/
noncomputable def residual (fit : CurveFit ℝ) (o : Observation) (thawed : List ℝ) : ℝ :=
  (o.y - fit.model.curve (Parameters.substitute fit.parameters thawed) o.x) / o.error

variable {fit : CurveFit ℝ} {constant : ℝ → ℝ} {slope : ℝ → ℕ → ℝ} {errors : List ℝ}

theorem scaledDifferences_map (c : ℝ → ℝ) (d : Dataset ℝ) (errors : List ℝ) :
    Statistic.scaledDifferences d.y (d.x.map c) errors =
      (d.observations errors).map fun o => (o.y - c o.x) / o.error := by
  apply List.ext_getElem
  · simp [Statistic.scaledDifferences, Dataset.observations, Nat.min_comm]
  · intro i _ _
    simp [Statistic.scaledDifferences, Dataset.observations]

theorem statAt_chi2 (hstat : fit.stat = .chi2) (thawed : List ℝ) :
    fit.statAt (some errors) thawed =
      ∑ k : Fin (fit.data.observations errors).length,
        fit.residual (fit.data.observations errors)[k] thawed ^ 2 := by
  rw [statAt, hstat, Statistic.value, Option.getD_some, Scalar.real_sumSq, curveAt,
    Model.valuesAt, scaledDifferences_map, List.map_map]
  exact (Fin.sum_univ_fun_getElem _ _).symm

theorem mem_of_mem_observations {d : Dataset ℝ} {o : Observation}
    (h : o ∈ d.observations errors) : o.x ∈ d.x := by
  obtain ⟨i, hi, rfl⟩ := List.mem_iff_getElem.mp h
  simp [Dataset.observations]

theorem residual_set (haffine : fit.Affine constant slope) {o : Observation}
    (ho : o.x ∈ fit.data.x) {v : List ℝ} (hv : v.length = Parameters.thawedCount fit.parameters)
    {i place : ℕ} (hplace : (Parameters.thawedIndices fit.parameters)[i]? = some place)
    (hi : i < v.length) (a : ℝ) :
    fit.residual o (v.set i a) =
      fit.residual o v + -(slope o.x place / o.error) * (a - v[i]) := by
  obtain ⟨hset, hget⟩ := Parameters.substitute_set hv hplace a
  have hlength : (Parameters.substitute fit.parameters v).length = fit.parameters.length :=
    Parameters.length_substitute _ _
  rw [List.getElem?_eq_getElem hi, List.getElem?_eq_some_iff] at hget
  obtain ⟨hlt, hvalue⟩ := hget
  rw [residual, residual, hset, haffine o.x ho _ hlength,
    haffine o.x ho _ ((List.length_set ..).trans hlength), List.mapIdx_set, List.sum_set']
  simp only [List.length_mapIdx, hlt, dif_pos, List.getElem_mapIdx, hvalue]
  ring

/-- Half a Hessian, the matrix that is inverted. -/
def halved {α : Type} [Scalar α] {n : ℕ} (h : Mat α n n) : Mat α n n := h.map (· * 0.5)

theorem deviationsWith_of_hessian {α : Type} [Scalar α] {fit : CurveFit α}
    {inverse : {n : ℕ} → Mat α n n → Option (Mat α n n)}
    (hempty : (Parameters.thawedValues fit.parameters).isEmpty = false)
    {h : Mat α _ _} (hhessian : Derivative.hessian? (fit.finiteStatAt fit.statErrors)
      (Parameters.thawedValues fit.parameters) = some h) :
    fit.deviationsWith inverse =
      match inverse (halved h) with
      | some cov => .ok (Derivative.deviations cov)
      | none => .ok ((Parameters.thawedValues fit.parameters).map fun _ => none) := by
  unfold deviationsWith halved
  simp only [hempty, Bool.false_eq_true, if_false, hhessian, Option.bind_some]
  cases inverse (h.map (· * 0.5)) <;> rfl

theorem entry_halved {n : ℕ} (h : Mat ℝ n n) (i j : Fin n) :
    (halved h).entry i j = h.entry i j / 2 := by
  rw [halved, Mat.entry_map, Scalar.real_decimal]
  norm_num
  ring

theorem length_values_eq_places (ps : List (Parameter ℝ)) :
    (Parameters.thawedValues ps).length = (Parameters.thawedIndices ps).length :=
  (Parameters.length_thawedValues ps).trans (Parameters.length_thawedIndices ps).symm

/-- Half the Hessian of the statistic is the information matrix, at any values and by any steps. -/
theorem exists_hessian (errors : List ℝ) (hstat : fit.stat = .chi2)
    (haffine : fit.Affine constant slope) :
    let x0 := Parameters.thawedValues fit.parameters
    ∃ h : Mat ℝ x0.length x0.length,
      Derivative.hessian? (fit.finiteStatAt (some errors)) x0 = some h ∧
        (halved h).toMatrix =
          (information slope (fit.data.observations errors)
            (Parameters.thawedIndices fit.parameters)).submatrix
              (finCongr (length_values_eq_places fit.parameters))
              (finCongr (length_values_eq_places fit.parameters)) := by
  intro x0
  have hlength : x0.length = (Parameters.thawedIndices fit.parameters).length :=
    length_values_eq_places fit.parameters
  have hfinite : fit.finiteStatAt (some errors) = fun v => some
      (∑ k : Fin (fit.data.observations errors).length,
        fit.residual (fit.data.observations errors)[k] v ^ 2) :=
    funext fun v => congrArg some (statAt_chi2 hstat v)
  have hsloped : Derivative.Sloped
      (fun (k : Fin (fit.data.observations errors).length) v =>
        fit.residual (fit.data.observations errors)[k] v)
      (fun k (i : Fin x0.length) => -(slope (fit.data.observations errors)[k].x
        (Parameters.thawedIndices fit.parameters)[i.cast hlength] /
          (fit.data.observations errors)[k].error)) := by
    intro k v hv i a
    refine residual_set haffine (mem_of_mem_observations (List.getElem_mem _)) ?_ ?_ _ a
    · rw [hv, hlength, Parameters.length_thawedIndices]
    · exact List.getElem?_eq_getElem _
  refine ⟨_, by rw [hfinite, Derivative.hessian?_sum_sq hsloped], ?_⟩
  ext i j
  simp only [Mat.toMatrix, Matrix.of_apply, entry_halved, Mat.entry_ofFn, Matrix.submatrix_apply,
    finCongr_apply, information_apply]
  rw [mul_div_cancel_left₀ _ two_ne_zero]
  apply Finset.sum_congr rfl
  intro k _
  exact neg_mul_neg _ _

variable {inverse : {n : ℕ} → Mat ℝ n n → Option (Mat ℝ n n)}

open scoped Classical in
/-- The roots of the diagonal of the inverse, or none where there is no inverse. -/
noncomputable def inverseRoots {n : ℕ} (M : Matrix (Fin n) (Fin n) ℝ) : List (Option ℝ) :=
  if IsUnit M then .ofFn fun i => some √(M⁻¹ i i) else .ofFn fun _ : Fin n => none

theorem inverseRoots_of_isUnit {n : ℕ} {M : Matrix (Fin n) (Fin n) ℝ} (h : IsUnit M) :
    inverseRoots M = .ofFn fun i => some √(M⁻¹ i i) :=
  if_pos h

theorem inverseRoots_of_not_isUnit {n : ℕ} {M : Matrix (Fin n) (Fin n) ℝ} (h : ¬IsUnit M) :
    inverseRoots M = .ofFn fun _ : Fin n => none :=
  if_neg h

/-- The deviations of a linear problem with something to fit. -/
theorem deviationsWith_eq
    (hinverse : Linear.Exact (@inverse (Parameters.thawedCount fit.parameters)))
    (hstat : fit.stat = .chi2) (herrors : fit.statErrors = some errors)
    (haffine : fit.Affine constant slope) (hthawed : 0 < Parameters.thawedCount fit.parameters) :
    fit.deviationsWith inverse = .ok (inverseRoots (information slope
      (fit.data.observations errors) (Parameters.thawedIndices fit.parameters))) := by
  have hlength := length_values_eq_places fit.parameters
  have hplaces := Parameters.length_thawedIndices fit.parameters
  have hempty : (Parameters.thawedValues fit.parameters).isEmpty = false := by
    rw [List.isEmpty_eq_false_iff, ← List.length_pos_iff, hlength, hplaces]
    exact hthawed
  obtain ⟨h, hhessian, hmatrix⟩ := exists_hessian errors hstat haffine
  generalize hM : information slope (fit.data.observations errors)
    (Parameters.thawedIndices fit.parameters) = M at hmatrix ⊢
  rw [← hplaces, ← hlength] at hinverse
  have hunit : IsUnit (halved h).toMatrix ↔ IsUnit M := by
    rw [hmatrix]
    exact Matrix.isUnit_submatrix_equiv (finCongr hlength) (finCongr hlength)
  rw [deviationsWith_of_hessian hempty (herrors ▸ hhessian)]
  cases hfound : inverse (halved h) with
  | none =>
      have hsingular : ¬IsUnit M := fun hM => hinverse.not_isUnit hfound (hunit.mpr hM)
      rw [inverseRoots_of_not_isUnit hsingular]
      exact congrArg Except.ok (List.ext_getElem (by simp [hlength]) fun i _ _ => by simp)
  | some cov =>
      obtain ⟨hregular, hcov⟩ := hinverse.eq_inv hfound
      rw [hmatrix, Matrix.inv_submatrix_equiv] at hcov
      rw [inverseRoots_of_isUnit (hunit.mp hregular)]
      refine congrArg Except.ok (List.ext_getElem
        (by simp [Derivative.deviations, Mat.diagonal_eq, hlength]) fun i _ hi => ?_)
      have hi' : i < (Parameters.thawedIndices fit.parameters).length := by simpa using hi
      have hentry : cov.entry ⟨i, hlength ▸ hi'⟩ ⟨i, hlength ▸ hi'⟩ = M⁻¹ ⟨i, hi'⟩ ⟨i, hi'⟩ :=
        congrFun (congrFun hcov ⟨i, hlength ▸ hi'⟩) ⟨i, hlength ▸ hi'⟩
      have hpos : 0 < M⁻¹ ⟨i, hi'⟩ ⟨i, hi'⟩ := by
        rw [← hM] at hunit ⊢
        exact information_inv_pos _ _ _ (hunit.mp hregular) _
      simp [Derivative.deviations, Mat.diagonal_eq, hentry, hpos]

theorem covarianceErrorsWith_eq
    (hinverse : Linear.Exact (@inverse (Parameters.thawedCount fit.parameters)))
    (hstat : fit.stat = .chi2) (herrors : fit.statErrors = some errors)
    (haffine : fit.Affine constant slope) (hthawed : 0 < Parameters.thawedCount fit.parameters) :
    fit.covarianceErrorsWith inverse = .ok (fit.symmetricEstimate (inverseRoots (information slope
      (fit.data.observations errors) (Parameters.thawedIndices fit.parameters)))) := by
  rw [covarianceErrorsWith, deviationsWith_eq hinverse hstat herrors haffine hthawed]
  rfl

theorem thawedIndices_of_frozen {α : Type} {ps qs : List (Parameter α)}
    (h : qs.map Parameter.frozen = ps.map Parameter.frozen) :
    Parameters.thawedIndices qs = Parameters.thawedIndices ps := by
  induction ps generalizing qs with
  | nil =>
      rw [List.map_nil, List.map_eq_nil_iff] at h
      rw [h]
  | cons p ps ih =>
      cases qs with
      | nil => simp at h
      | cons q qs =>
          obtain ⟨hhead, htail⟩ := List.cons.inj h
          rw [Parameters.thawedIndices_cons, Parameters.thawedIndices_cons, hhead, ih htail]

theorem Affine.withParameters (h : fit.Affine constant slope) {ps : List (Parameter ℝ)}
    (hlength : ps.length = fit.parameters.length) :
    (fit.withParameters ps).Affine constant slope :=
  fun x hx values hvalues => h x hx values (hvalues.trans hlength)

end CurveFit

/-- For chi-square, a curve that is affine in its parameters at each coordinate, any data and any
errors, given or derived, the bounds by covariance are the roots of the diagonal of `(Jᵀ W J)⁻¹` to
both sides, one for each thawed parameter, when `Jᵀ W J` has an inverse, and all missing when it has
none. They are the same for any other values and limits of the parameters, thawed or frozen. -/
theorem covariance_exact_of_affine {inverse : {n : ℕ} → Mat ℝ n n → Option (Mat ℝ n n)}
    {fit : CurveFit ℝ} {errors : List ℝ} {constant : ℝ → ℝ} {slope : ℝ → ℕ → ℝ}
    (hinverse : Linear.Exact (@inverse (Parameters.thawedCount fit.parameters)))
    (hstat : fit.stat = .chi2) (herrors : fit.statErrors = some errors)
    (haffine : fit.Affine constant slope) (hthawed : 0 < Parameters.thawedCount fit.parameters) :
    let M := information slope (fit.data.observations errors)
      (Parameters.thawedIndices fit.parameters)
    ∃ e, fit.covarianceErrorsWith inverse = .ok e ∧ e.Describes fit.parameters ∧
      (IsUnit M → (∀ i, 0 < M⁻¹ i i) ∧ e.upper = .ofFn (fun i => some √(M⁻¹ i i)) ∧
        e.lower = .ofFn fun i => some (-√(M⁻¹ i i))) ∧
      (¬IsUnit M → (∀ bound ∈ e.upper, bound = none) ∧ ∀ bound ∈ e.lower, bound = none) ∧
      ∀ ps : List (Parameter ℝ), ps.map Parameter.frozen = fit.parameters.map Parameter.frozen →
        ∃ e', (fit.withParameters ps).covarianceErrorsWith inverse = .ok e' ∧
          e'.upper = e.upper ∧ e'.lower = e.lower := by
  intro M
  have hdeviations := CurveFit.deviationsWith_eq hinverse hstat herrors haffine hthawed
  refine ⟨fit.symmetricEstimate (CurveFit.inverseRoots M),
    CurveFit.covarianceErrorsWith_eq hinverse hstat herrors haffine hthawed,
    CurveFit.describes_symmetricEstimate (CurveFit.deviationsWith_eq_ok hdeviations).1, ?_, ?_, ?_⟩
  · intro hM
    refine ⟨information_inv_pos _ _ _ hM, ?_, ?_⟩
    · rw [CurveFit.symmetricEstimate, CurveFit.inverseRoots_of_isUnit hM]
    · rw [CurveFit.symmetricEstimate, CurveFit.inverseRoots_of_isUnit hM, List.map_ofFn]
      rfl
  · intro hM
    rw [CurveFit.symmetricEstimate, CurveFit.inverseRoots_of_not_isUnit hM]
    simp
  · intro ps hps
    have hplaces := CurveFit.thawedIndices_of_frozen hps
    have hcount : Parameters.thawedCount ps = Parameters.thawedCount fit.parameters := by
      rw [← Parameters.length_thawedIndices, hplaces, Parameters.length_thawedIndices]
    have hlength : ps.length = fit.parameters.length := by simpa using congrArg List.length hps
    have hother : (fit.withParameters ps).covarianceErrorsWith inverse =
        .ok ((fit.withParameters ps).symmetricEstimate (CurveFit.inverseRoots (information slope
          (fit.data.observations errors) (Parameters.thawedIndices ps)))) := by
      refine CurveFit.covarianceErrorsWith_eq ?_ hstat herrors (haffine.withParameters hlength) ?_
      · exact hcount.symm ▸ hinverse
      · exact hcount.symm ▸ hthawed
    rw [hplaces] at hother
    exact ⟨_, hother, rfl, rfl⟩

/-- A straight line with a frozen shift between its coefficients, and the second of two points less
certain than the first. -/
noncomputable def measuredLine : CurveFit ℝ where
  data := { name := "line", x := [0, 1], y := [1, 3], errors := some [1, 2] }
  model :=
    { name := "line"
      parameters := [⟨"c0", 1, 0, 4, false⟩, ⟨"shift", 5, 0, 9, true⟩, ⟨"c1", 2, 0, 4, false⟩]
      curve := fun values x => values.getD 0 0 + values.getD 1 0 + values.getD 2 0 * x }
  stat := .chi2
  config := { tolerance := 0 }

def lineSlope (x : ℝ) (j : ℕ) : ℝ := if j = 2 then x else 1

theorem measuredLine_affine : measuredLine.Affine (fun _ => 0) lineSlope := by
  intro x _ values hvalues
  obtain ⟨a, b, c, rfl⟩ := List.length_eq_three.mp hvalues
  simp [measuredLine, lineSlope]
  ring

/-- The thawed coefficients are at the first place and the third. -/
theorem measuredLine_information :
    (information lineSlope (measuredLine.data.observations [1, 2])
      (Parameters.thawedIndices measuredLine.parameters) : Matrix (Fin 2) (Fin 2) ℝ) =
        !![5 / 4, 1 / 4; 1 / 4, 1 / 4] := by
  have hpoints : measuredLine.data.observations [1, 2] = [⟨0, 1, 1⟩, ⟨1, 3, 2⟩] := rfl
  have hplaces : Parameters.thawedIndices measuredLine.parameters = [0, 2] := rfl
  rw [hpoints]
  ext i j
  refine (information_apply _ _ _ i j).trans ?_
  fin_cases i <;> fin_cases j <;> simp [hplaces, lineSlope] <;> norm_num <;> rfl

theorem measuredLine_covariance :
    measuredLine.Affine (fun _ => 0) lineSlope ∧
      Linear.Exact (@Linear.inverse? ℝ _ (Parameters.thawedCount measuredLine.parameters)) ∧
      0 < Parameters.thawedCount measuredLine.parameters ∧
      ∃ e, measuredLine.covarianceErrors = .ok e ∧ e.names = ["c0", "c1"] ∧
        e.upper = [some 1, some √5] ∧ e.lower = [some (-1), some (-√5)] := by
  have hinverse : Linear.Exact
      (@Linear.inverse? ℝ _ (Parameters.thawedCount measuredLine.parameters)) :=
    Linear.exact_inverseTwo?
  have hthawed : 0 < Parameters.thawedCount measuredLine.parameters := Nat.two_pos
  obtain ⟨e, he, hdescribes, hregular, -, -⟩ :=
    covariance_exact_of_affine hinverse rfl rfl measuredLine_affine hthawed
  rw [CurveFit.covarianceErrorsWith_inverse?] at he
  have hmul : (!![5 / 4, 1 / 4; 1 / 4, 1 / 4] : Matrix (Fin 2) (Fin 2) ℝ) *
      !![1, -1; -1, 5] = 1 := by
    rw [Matrix.mul_fin_two, Matrix.one_fin_two]
    norm_num
  have hbounds : ∀ M : Matrix (Fin 2) (Fin 2) ℝ,
      information lineSlope (measuredLine.data.observations [1, 2])
        (Parameters.thawedIndices measuredLine.parameters) = M → IsUnit M →
      e.upper = .ofFn (fun i : Fin 2 => some √(M⁻¹ i i)) ∧
        e.lower = .ofFn fun i : Fin 2 => some (-√(M⁻¹ i i)) := by
    rintro _ rfl hunit
    exact (hregular hunit).2
  obtain ⟨hupper, hlower⟩ := hbounds _ measuredLine_information (IsUnit.of_mul_eq_one _ hmul)
  rw [Matrix.inv_eq_right_inv hmul] at hupper hlower
  refine ⟨measuredLine_affine, hinverse, hthawed, e, he, hdescribes.names_eq, ?_, ?_⟩
  · rw [hupper]
    simp
  · rw [hlower]
    simp

end ParameterScan
