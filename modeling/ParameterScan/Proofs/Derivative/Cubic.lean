import Mathlib.Algebra.MvPolynomial.PDeriv
import Mathlib.RingTheory.Derivation.Lie
import Mathlib.Tactic.IntervalCases
import ParameterScan.Proofs.Derivative.Stencil
import ParameterScan.Proofs.Linear.LeastSquares

/-!
# Hessians of cubic polynomials

In exact arithmetic, central differences are exact on polynomials of a total degree of up to three,
at every point and by any steps that are not zero. The differences are additive, so the statement is
one about monomials. A monomial changes with one coordinate, or with two, by their powers alone, and
the powers are three at most, all together for two coordinates. What is left of a power after the
even or the odd part has cancelled is then the derivative itself.
-/
namespace ParameterScan.Derivative

open MvPolynomial
open scoped Exact

section Monomials

variable {n : ℕ} {v : Fin n → ℝ} {s : Fin n →₀ ℕ} {c : ℝ} {i j : Fin n}

/-- A monomial changes with a coordinate by the power of it. -/
theorem eval_update_monomial (v : Fin n → ℝ) (s : Fin n →₀ ℕ) (c : ℝ) (i : Fin n) (a : ℝ) :
    eval (Function.update v i a) (monomial s c) = a ^ s i * eval v (monomial (s.erase i) c) := by
  have hrest : (s.erase i).prod (fun k e => Function.update v i a k ^ e) =
      (s.erase i).prod fun k e => v k ^ e := by
    apply Finsupp.prod_congr
    intro k hk
    have hki : k ≠ i := by
      rintro rfl
      simp at hk
    rw [Function.update_of_ne hki]
  rw [eval_monomial, eval_monomial, ← hrest,
    ← Finsupp.mul_prod_erase' s i (fun k e => Function.update v i a k ^ e) (fun _ => pow_zero _),
    Function.update_self]
  ring

theorem eval_monomial_erase (v : Fin n → ℝ) (s : Fin n →₀ ℕ) (c : ℝ) (i : Fin n) :
    eval v (monomial s c) = v i ^ s i * eval v (monomial (s.erase i) c) := by
  rw [← eval_update_monomial, Function.update_eq_self]

theorem eval_monomial_mul (v : Fin n → ℝ) (s : Fin n →₀ ℕ) (c d : ℝ) :
    eval v (monomial s (c * d)) = d * eval v (monomial s c) := by
  rw [eval_monomial, eval_monomial]
  ring

/-- The powers of a derivative. -/
theorem erase_sub_single (s : Fin n →₀ ℕ) (i : Fin n) :
    (s - Finsupp.single i 1).erase i = s.erase i := by
  ext k
  by_cases hk : k = i <;> simp [hk]

theorem eval_pderiv_monomial (v : Fin n → ℝ) (s : Fin n →₀ ℕ) (c : ℝ) (i : Fin n) :
    eval v (pderiv i (monomial s c)) =
      s i * v i ^ (s i - 1) * eval v (monomial (s.erase i) c) := by
  rw [pderiv_monomial, eval_monomial_mul, eval_monomial_erase _ _ _ i, erase_sub_single,
    Finsupp.tsub_apply, Finsupp.single_eq_same]
  ring

/-- The second derivative of a monomial in one coordinate. -/
theorem eval_pderiv_pderiv_self (v : Fin n → ℝ) (s : Fin n →₀ ℕ) (c : ℝ) (i : Fin n) :
    eval v (pderiv i (pderiv i (monomial s c))) =
      s i * (s i - 1 : ℕ) * v i ^ (s i - 1 - 1) * eval v (monomial (s.erase i) c) := by
  rw [pderiv_monomial, eval_pderiv_monomial, eval_monomial_mul, erase_sub_single,
    Finsupp.tsub_apply, Finsupp.single_eq_same]
  ring

/-- The derivative of a monomial in two coordinates. -/
theorem eval_pderiv_pderiv_of_ne (v : Fin n → ℝ) (s : Fin n →₀ ℕ) (c : ℝ) (hij : i ≠ j) :
    eval v (pderiv i (pderiv j (monomial s c))) =
      s i * v i ^ (s i - 1) * (s j * v j ^ (s j - 1)) *
        eval v (monomial ((s.erase j).erase i) c) := by
  have hrest : ((s - Finsupp.single j 1).erase i).erase j = (s.erase j).erase i := by
    ext k
    by_cases hki : k = i <;> by_cases hkj : k = j <;> simp [Finsupp.erase_apply, hki, hkj]
  rw [pderiv_monomial, eval_pderiv_monomial, eval_monomial_mul, eval_monomial_erase _ _ _ j, hrest,
    Finsupp.erase_ne hij.symm, Finsupp.tsub_apply, Finsupp.single_eq_of_ne hij, Nat.sub_zero,
    Finsupp.tsub_apply, Finsupp.single_eq_same]
  ring

theorem add_le_degree {p : MvPolynomial (Fin n) ℝ} (hs : s ∈ p.support) (hij : i ≠ j) :
    s i + s j ≤ p.totalDegree := by
  calc s i + s j = ∑ k ∈ {i, j}, s k := (Finset.sum_pair hij).symm
    _ ≤ ∑ k, s k := Finset.sum_le_sum_of_subset (Finset.subset_univ _)
    _ = s.sum fun _ e => e := (Finsupp.sum_fintype s (fun _ e => e) fun _ => rfl).symm
    _ ≤ p.totalDegree := le_totalDegree hs

end Monomials

section Powers

variable {u w a b : ℝ} {k l : ℕ}

/-- The even part of a power. -/
theorem second_power (h : k ≤ 3) :
    (u + a) ^ k - 2 * u ^ k + (u - a) ^ k = k * (k - 1 : ℕ) * u ^ (k - 1 - 1) * (a * a) := by
  interval_cases k <;> norm_num <;> ring

/-- The odd part of a power. -/
theorem first_power (h : k ≤ 2) : (u + a) ^ k - (u - a) ^ k = k * u ^ (k - 1) * (2 * a) := by
  interval_cases k <;> norm_num <;> ring

/-- Two odd parts cannot both be those of higher powers. -/
theorem mixed_power (h : k + l ≤ 3) :
    ((u + a) ^ k - (u - a) ^ k) * ((w + b) ^ l - (w - b) ^ l) =
      k * u ^ (k - 1) * (l * w ^ (l - 1)) * (4 * a * b) := by
  rcases Nat.eq_zero_or_pos k with rfl | hk
  · simp
  rcases Nat.eq_zero_or_pos l with rfl | hl
  · simp
  rw [first_power (by omega), first_power (by omega)]
  ring

end Powers

section Differences

variable {x : List ℝ} {steps : Fin x.length → ℝ} {i j : Fin x.length}

/-- The value of a polynomial at a point that is given by the list of its coordinates. -/
noncomputable def valueOf {n : ℕ} (p : MvPolynomial (Fin n) ℝ) (v : List ℝ) : ℝ :=
  eval (Linear.coordinates n v) p

/-- The second derivatives of a polynomial at a point. -/
noncomputable def secondDerivatives (p : MvPolynomial (Fin x.length) ℝ) :
    Mat ℝ x.length x.length :=
  Mat.ofFn fun i j => valueOf (pderiv i (pderiv j p)) x

@[simp] theorem valueOf_zero {n : ℕ} (v : List ℝ) : valueOf (0 : MvPolynomial (Fin n) ℝ) v = 0 :=
  map_zero _

@[simp] theorem valueOf_add {n : ℕ} (p q : MvPolynomial (Fin n) ℝ) (v : List ℝ) :
    valueOf (p + q) v = valueOf p v + valueOf q v :=
  map_add _ p q

theorem coordinates_set {n : ℕ} {v : List ℝ} (hv : v.length = n) (i : Fin n) (a : ℝ) :
    Linear.coordinates n (v.set i a) = Function.update (Linear.coordinates n v) i a := by
  funext k
  by_cases hk : k = i
  · subst hk
    simp [Linear.coordinates, hv]
  · have hne : i.val ≠ k.val := fun h => hk (Fin.ext h.symm)
    simp [Linear.coordinates, hk, hne]

theorem valueOf_set (s : Fin x.length →₀ ℕ) (c : ℝ) (i : Fin x.length) (a : ℝ) :
    valueOf (monomial s c) (x.set i a) = a ^ s i * valueOf (monomial (s.erase i) c) x := by
  rw [valueOf, coordinates_set rfl, eval_update_monomial, valueOf]

theorem valueOf_set_set (s : Fin x.length →₀ ℕ) (c : ℝ) (hij : i ≠ j) (a b : ℝ) :
    valueOf (monomial s c) ((x.set i a).set j b) =
      b ^ s j * (a ^ s i * valueOf (monomial ((s.erase j).erase i) c) x) := by
  rw [valueOf, coordinates_set (List.length_set ..), coordinates_set rfl, eval_update_monomial,
    eval_update_monomial, Finsupp.erase_ne hij, valueOf]

theorem coordinates_apply (i : Fin x.length) : Linear.coordinates x.length x i = x.get i := by
  simp [Linear.coordinates]

theorem secondDifference_monomial {s : Fin x.length →₀ ℕ} {c : ℝ} (h : s i ≤ 3)
    (hstep : steps i ≠ 0) :
    secondDifference x steps (valueOf (monomial s c)) i =
      valueOf (pderiv i (pderiv i (monomial s c))) x := by
  have hpoint : valueOf (monomial s c) x = x[i] ^ s i * valueOf (monomial (s.erase i) c) x := by
    rw [← valueOf_set, Fin.getElem_fin, List.set_getElem_self]
  have hderivative : valueOf (pderiv i (pderiv i (monomial s c))) x =
      s i * (s i - 1 : ℕ) * x[i] ^ (s i - 1 - 1) * valueOf (monomial (s.erase i) c) x := by
    rw [valueOf, eval_pderiv_pderiv_self, coordinates_apply, valueOf,
      List.get_eq_getElem, Fin.getElem_fin]
  have hpower := @second_power x[i] (steps i) (s i) h
  rw [secondDifference, (beside_eq x steps i).1, (beside_eq x steps i).2, valueOf_set, valueOf_set,
    hpoint, hderivative, div_eq_iff (mul_ne_zero hstep hstep)]
  linear_combination valueOf (monomial (s.erase i) c) x * hpower

theorem mixedDifference_monomial {s : Fin x.length →₀ ℕ} {c : ℝ} (h : s i + s j ≤ 3)
    (hij : i ≠ j) (hstep : steps i ≠ 0) (hstep' : steps j ≠ 0) :
    mixedDifference x steps (valueOf (monomial s c)) i j =
      valueOf (pderiv i (pderiv j (monomial s c))) x := by
  have hderivative : valueOf (pderiv i (pderiv j (monomial s c))) x =
      s i * x[i] ^ (s i - 1) * (s j * x[j] ^ (s j - 1)) *
        valueOf (monomial ((s.erase j).erase i) c) x := by
    rw [valueOf, eval_pderiv_pderiv_of_ne _ _ _ hij, coordinates_apply, coordinates_apply, valueOf,
      List.get_eq_getElem, List.get_eq_getElem, Fin.getElem_fin, Fin.getElem_fin]
  have hcorner : ∀ aboveI aboveJ, valueOf (monomial s c) (corner x steps i j aboveI aboveJ) =
      (if aboveJ then x[j] + steps j else x[j] - steps j) ^ s j *
        ((if aboveI then x[i] + steps i else x[i] - steps i) ^ s i *
          valueOf (monomial ((s.erase j).erase i) c) x) :=
    fun _ _ => valueOf_set_set s c hij _ _
  have hpower := @mixed_power x[i] x[j] (steps i) (steps j) (s i) (s j) h
  simp only [mixedDifference, hcorner, if_true, Bool.false_eq_true, if_false]
  rw [hderivative, div_eq_iff (by simpa using ⟨hstep, hstep'⟩)]
  linear_combination valueOf (monomial ((s.erase j).erase i) c) x * hpower

/-- What holds of the monomials of a polynomial and is kept by sums holds of the polynomial. -/
theorem of_monomials {n : ℕ} {motive : MvPolynomial (Fin n) ℝ → Prop}
    {p : MvPolynomial (Fin n) ℝ} (h : ∀ s ∈ p.support, motive (monomial s (coeff s p)))
    (hzero : motive 0) (hadd : ∀ q r, motive q → motive r → motive (q + r)) : motive p := by
  rw [p.as_sum]
  exact Finset.sum_induction _ motive hadd hzero h

theorem secondDifference_polynomial {p : MvPolynomial (Fin x.length) ℝ} (hp : p.totalDegree ≤ 3)
    (hstep : steps i ≠ 0) :
    secondDifference x steps (valueOf p) i = valueOf (pderiv i (pderiv i p)) x := by
  refine of_monomials
    (motive := fun q => secondDifference x steps (valueOf q) i = valueOf (pderiv i (pderiv i q)) x)
    (fun s hs => ?_) ?_ fun q r hq hr => ?_
  · refine secondDifference_monomial ?_ hstep
    exact (degreeOf_le_iff.mp (degreeOf_le_totalDegree p i) s hs).trans hp
  · simp [secondDifference]
  · rw [map_add, map_add, valueOf_add, ← hq, ← hr]
    simp only [secondDifference, valueOf_add]
    ring

theorem mixedDifference_polynomial {p : MvPolynomial (Fin x.length) ℝ} (hp : p.totalDegree ≤ 3)
    (hij : i ≠ j) (hstep : steps i ≠ 0) (hstep' : steps j ≠ 0) :
    mixedDifference x steps (valueOf p) i j = valueOf (pderiv i (pderiv j p)) x := by
  refine of_monomials
    (motive := fun q => mixedDifference x steps (valueOf q) i j = valueOf (pderiv i (pderiv j q)) x)
    (fun s hs => ?_) ?_ fun q r hq hr => ?_
  · exact mixedDifference_monomial ((add_le_degree hs hij).trans hp) hij hstep hstep'
  · simp [mixedDifference]
  · rw [map_add, map_add, valueOf_add, ← hq, ← hr]
    simp only [mixedDifference, valueOf_add]
    ring

theorem pderiv_comm {n : ℕ} (i j : Fin n) (p : MvPolynomial (Fin n) ℝ) :
    pderiv i (pderiv j p) = pderiv j (pderiv i p) := by
  -- The bracket of two derivations is one, and this one has no value at the variables.
  have hbracket : ⁅pderiv (R := ℝ) i, pderiv (R := ℝ) j⁆ = 0 := by
    apply derivation_ext
    intro k
    rw [Derivation.commutator_apply]
    simp [pderiv_X, Pi.single_apply, apply_ite]
  rw [← sub_eq_zero, ← Derivation.commutator_apply, hbracket, Derivation.zero_apply]

/-- The Hessian of a cubic polynomial is the matrix of its second derivatives. -/
theorem hessianWith?_polynomial {p : MvPolynomial (Fin x.length) ℝ} (hp : p.totalDegree ≤ 3)
    (hsteps : ∀ i, steps i ≠ 0) :
    hessianWith? x steps (fun v => some (valueOf p v)) = some (secondDerivatives p) := by
  rw [hessianWith?_total]
  refine congrArg (fun entries => some (Mat.ofFn entries)) (funext fun i => funext fun j => ?_)
  split_ifs with hij hlt
  · subst hij
    exact secondDifference_polynomial hp (hsteps i)
  · exact mixedDifference_polynomial hp hij (hsteps i) (hsteps j)
  · rw [mixedDifference_polynomial hp (Ne.symm hij) (hsteps j) (hsteps i), pderiv_comm]

end Differences

/-- A Hessian is missing exactly when its function has no value at one of `2 n² + 1` points, none of
which is moved in more than two coordinates, and it is symmetric. In exact arithmetic the Hessian of
a polynomial of a total degree of up to three is the matrix of its second derivatives, by the steps
that are used and by any others that are positive. -/
theorem hessian?_exact_on_cubics :
    (∀ {α : Type} [Scalar α] (f : List α → Option α) (x : List α),
      let points := centralPoints x (stepOf x)
      points.length = 2 * x.length ^ 2 + 1 ∧ (∀ p ∈ points, WithinTwo x p) ∧
        (hessian? f x = none ↔ ∃ p ∈ points, f p = none) ∧
          ∀ h, hessian? f x = some h → h.transpose = h) ∧
    ∀ (x : List ℝ) (p : MvPolynomial (Fin x.length) ℝ), p.totalDegree ≤ 3 →
      hessian? (fun v => some (valueOf p v)) x = some (secondDerivatives p) ∧
        ∀ steps, (∀ i, 0 < steps i) →
          hessianWith? x steps (fun v => some (valueOf p v)) = some (secondDerivatives p) := by
  constructor
  · intro α _ f x
    refine ⟨length_centralPoints x _, fun p hp => withinTwo_of_mem hp, hessianWith?_eq_none_iff, ?_⟩
    exact fun h hsome => transpose_of_hessianWith? hsome
  · intro x p hp
    refine ⟨hessianWith?_polynomial hp fun i => (stepOf_pos x i).ne', fun steps hsteps => ?_⟩
    exact hessianWith?_polynomial hp fun i => (hsteps i).ne'

/-- The square of the first coordinate times the second one. -/
noncomputable def ruledSurface : MvPolynomial (Fin 2) ℝ :=
  X ⟨0, Nat.two_pos⟩ * X ⟨0, Nat.two_pos⟩ * X ⟨1, Nat.one_lt_two⟩

theorem totalDegree_ruledSurface : ruledSurface.totalDegree ≤ 3 := by
  have hsquare := totalDegree_mul (X 0 : MvPolynomial (Fin 2) ℝ) (X 0)
  have hproduct := totalDegree_mul (X 0 * X 0 : MvPolynomial (Fin 2) ℝ) (X 1)
  rw [totalDegree_X] at hsquare hproduct
  exact hproduct.trans (Nat.add_le_add_right hsquare 1)

theorem secondDerivatives_ruledSurface :
    (secondDerivatives ruledSurface : Mat ℝ ([2, 3] : List ℝ).length _) =
      Mat.ofFn !![6, 4; 4, 0] := by
  refine congrArg Mat.ofFn (funext fun i => funext fun j => ?_)
  fin_cases i <;> fin_cases j <;>
    simp [ruledSurface, valueOf, Linear.coordinates, pderiv_X] <;> norm_num

/-- The second derivatives of the surface are found, also by steps of a half. Where it has no values
left of two, there is no Hessian at two. -/
theorem ruledSurface_hessian :
    ruledSurface.totalDegree ≤ 3 ∧
      hessian? (fun v => some (valueOf ruledSurface v)) [2, 3] = some (Mat.ofFn !![6, 4; 4, 0]) ∧
      hessianWith? [2, 3] (fun _ => 1 / 2) (fun v => some (valueOf ruledSurface v)) =
        some (Mat.ofFn !![6, 4; 4, 0]) ∧
      (Mat.ofFn !![6, 4; 4, 0] : Mat ℝ 2 2).transpose = Mat.ofFn !![6, 4; 4, 0] ∧
      hessian? (fun v => if v.getD 0 0 < 2 then none else some (valueOf ruledSurface v)) [2, 3] =
        none := by
  obtain ⟨hstencil, hcubic⟩ := hessian?_exact_on_cubics
  obtain ⟨hown, hany⟩ := hcubic [2, 3] ruledSurface totalDegree_ruledSurface
  rw [secondDerivatives_ruledSurface] at hown
  refine ⟨totalDegree_ruledSurface, hown, ?_, ?_, ?_⟩
  · rw [hany _ fun _ => one_half_pos, secondDerivatives_ruledSurface]
  · exact (hstencil _ [2, 3]).2.2.2 _ hown
  · rw [(hstencil _ [2, 3]).2.2.1]
    let first : Fin ([2, 3] : List ℝ).length := ⟨0, Nat.two_pos⟩
    have hleft : beside [2, 3] (stepOf [2, 3]) first false ∈
        centralPoints ([2, 3] : List ℝ) (stepOf [2, 3]) :=
      mem_centralPoints.mpr (.inr (.inl ⟨first, List.mem_cons_of_mem _ List.mem_cons_self⟩))
    have hstep := stepOf_pos [2, 3] first
    refine ⟨_, hleft, if_pos ?_⟩
    change 2 - stepOf [2, 3] first < 2
    exact sub_lt_self 2 hstep

end ParameterScan.Derivative
