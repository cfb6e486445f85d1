import Mathlib.Analysis.SpecialFunctions.Gaussian.GaussianIntegral
import Mathlib.Analysis.SpecialFunctions.Log.Base
import ParameterScan.Scalar

/-!
# Exact arithmetic

The instance of `Scalar` in which nothing is rounded, for modules that open `Exact`. All numbers are
finite, so what is said of a `NaN` or of an overflow is empty here. The number that stands for
infinity on doubles has no counterpart: it is zero, and no statement on exact arithmetic uses it. A
literal of the class is the same real number as the literal itself.
-/
namespace ParameterScan

namespace Exact

open scoped Classical in
noncomputable scoped instance real : Scalar ℝ where
  beq a b := decide (a = b)
  decLt := inferInstance
  decLe := inferInstance
  ofNat n := n
  ofDecimal m e := m / 10 ^ e
  toNat x := ⌊x⌋₊
  isNaN _ := false
  isFinite _ := true
  infinity := 0
  abs x := |x|
  sqrt := Real.sqrt
  floor x := ⌊x⌋
  ln := Real.log
  log10 := Real.logb 10
  tenTo x := 10 ^ x
  erfc x := 2 / √Real.pi * ∫ t in Set.Ioi x, Real.exp (-t ^ 2)

end Exact

open scoped Exact

namespace Scalar

@[simp] theorem real_isNaN (x : ℝ) : isNaN x = false := rfl

@[simp] theorem real_isFinite (x : ℝ) : isFinite x = true := rfl

@[simp] theorem real_abs (x : ℝ) : Scalar.abs x = |x| := rfl

@[simp] theorem real_sqrt (x : ℝ) : Scalar.sqrt x = √x := rfl

@[simp] theorem real_beq (a b : ℝ) : (a == b) = decide (a = b) := rfl

@[simp] theorem real_zero : @OfNat.ofNat ℝ 0 (instOfNat 0) = 0 := Nat.cast_zero

@[simp] theorem real_one : @OfNat.ofNat ℝ 1 (instOfNat 1) = 1 := Nat.cast_one

@[simp] theorem real_ofNat (n : ℕ) [n.AtLeastTwo] :
    @OfNat.ofNat ℝ n (instOfNat n) = OfNat.ofNat n := rfl

@[simp] theorem real_decimal (m e : ℕ) :
    @OfScientific.ofScientific ℝ instOfScientific m true e = m / 10 ^ e := rfl

@[simp] theorem real_larger (a b : ℝ) : larger a b = max a b := by
  simp only [larger, real_isNaN, Bool.false_or, decide_eq_true_eq]
  split_ifs with h
  · exact (max_eq_left h.le).symm
  · exact (max_eq_right (not_lt.mp h)).symm

@[simp] theorem real_smaller (a b : ℝ) : smaller a b = min a b := by
  simp only [smaller, real_isNaN, Bool.false_or, decide_eq_true_eq]
  split_ifs with h
  · exact (min_eq_left h.le).symm
  · exact (min_eq_right (not_lt.mp h)).symm

@[simp] theorem real_sum (xs : List ℝ) : Scalar.sum xs = xs.sum := by
  have hfold : ∀ total : ℝ, xs.foldl (· + ·) total = total + xs.sum := by
    induction xs with
    | nil => simp
    | cons x xs ih =>
        intro total
        rw [List.foldl_cons, ih, List.sum_cons, add_assoc]
  refine (hfold _).trans ?_
  simp

theorem real_sumSq (xs : List ℝ) : sumSq xs = (xs.map fun x => x ^ 2).sum := by
  rw [sumSq, real_sum]
  simp only [sq]

end Scalar

end ParameterScan
