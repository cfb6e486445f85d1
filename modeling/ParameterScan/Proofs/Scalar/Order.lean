import Mathlib.Tactic.ByContra
import Mathlib.Tactic.SplitIfs
import ParameterScan.Statistic

/-!
# The order of numbers

What the results on searches take from arithmetic: that the comparisons order the numbers that are
not `NaN`, that a `NaN` compares with nothing, and that equal numbers behave as equal. Doubles have
two equal zeros, so "equal" (`Alike`) is weaker than the same: it means the same number or two that
lie below each other. Nothing is assumed about rounding or about the results of an operation.
-/
namespace ParameterScan

namespace Scalar

variable {α : Type} [Scalar α]

/-- The same number, or two numbers of which neither is below the other. -/
def Alike (a b : α) : Prop := a = b ∨ a ≤ b ∧ b ≤ a

/-- The order laws of numbers that may be `NaN`. -/
class Ordered (α : Type) [Scalar α] : Prop where
  le_of_lt : ∀ {a b : α}, a < b → a ≤ b
  le_trans : ∀ {a b c : α}, a ≤ b → b ≤ c → a ≤ c
  not_lt_of_le : ∀ {a b : α}, a ≤ b → ¬b < a
  le_of_not_lt : ∀ {a b : α}, isNaN a = false → isNaN b = false → ¬a < b → b ≤ a
  isNaN_left : ∀ {a b : α}, a ≤ b → isNaN a = false
  isNaN_right : ∀ {a b : α}, a ≤ b → isNaN b = false
  isNaN_of_isFinite : ∀ {a : α}, isFinite a = true → isNaN a = false
  isNaN_infinity : isNaN (infinity : α) = false
  isFinite_infinity : isFinite (infinity : α) = false

/-- Equal numbers give equal results, and only a zero has an equal that is not the same. -/
class Congruent (α : Type) [Scalar α] : Prop where
  add : ∀ {a b c d : α}, Alike a b → Alike c d → Alike (a + c) (b + d)
  sub : ∀ {a b c d : α}, Alike a b → Alike c d → Alike (a - c) (b - d)
  mul : ∀ {a b c d : α}, Alike a b → Alike c d → Alike (a * c) (b * d)
  div : ∀ {a b : α} (c : α), Alike a b → Alike (a / c) (b / c)
  eq_of_pos : ∀ {a b : α}, Alike a b → 0 < a → a = b
  eq_of_neg : ∀ {a b : α}, Alike a b → a < 0 → a = b
  leastModel_pos : (0 : α) < Statistic.leastModel

/-- Rounding keeps the order of exact results. What overflows is infinite, and stays so. -/
class Monotone (α : Type) [Scalar α] : Prop extends Ordered α where
  isFinite_of_between : ∀ {a x b : α}, isFinite a = true → isFinite b = true → a ≤ x → x ≤ b →
    isFinite x = true
  isFinite_of_add : ∀ {a b : α}, isFinite (a + b) = true → isFinite a = true ∧ isFinite b = true
  isFinite_of_mul : ∀ {a b : α}, isFinite (a * b) = true → isFinite a = true ∧ isFinite b = true
  isNaN_of_add : ∀ {a b : α}, isNaN (a + b) = false → isNaN b = false
  isNaN_of_mul : ∀ {a b : α}, isNaN (a * b) = false → isNaN a = false
  isFinite_zero : isFinite (0 : α) = true
  zero_lt_one : (0 : α) < 1
  sqrt_pos : ∀ {a : α}, 0 < a → 0 < sqrt a
  ofNat_le : ∀ {m n : Nat}, m ≤ n → (ofNat m : α) ≤ ofNat n
  gaps_pos : ∀ n : Nat, (0 : α) < ofNat (n + 2) - 1
  sub_nonneg : ∀ {a b : α}, isFinite a = true → isFinite b = true → a ≤ b → 0 ≤ b - a
  div_nonneg : ∀ {a b : α}, 0 ≤ a → 0 < b → isNaN (a / b) = false → 0 ≤ a / b
  mul_nonneg : ∀ {a b : α}, 0 ≤ a → 0 ≤ b → isNaN (a * b) = false → 0 ≤ a * b
  le_add : ∀ {a b : α}, isFinite a = true → 0 ≤ b → a ≤ a + b
  add_le_add : ∀ {a b c : α}, isFinite a = true → isFinite b = true → isFinite c = true → b ≤ c →
    a + b ≤ a + c
  mul_le_mul : ∀ {a b c : α}, 0 ≤ a → isFinite a = true → isFinite b = true → isFinite c = true →
    b ≤ c → a * b ≤ a * c

variable {a b c x lower upper : α}

theorem Alike.symm (h : Alike a b) : Alike b a := by
  rcases h with h | ⟨hab, hba⟩
  · exact .inl h.symm
  · exact .inr ⟨hba, hab⟩

theorem larger_le (ha : a ≤ c) (hb : b ≤ c) : larger a b ≤ c := by
  unfold larger
  split_ifs <;> assumption

variable [Ordered α]

open Ordered

theorem le_refl_of_not_nan (h : isNaN a = false) : a ≤ a := by
  by_cases hlt : a < a
  · exact le_of_lt hlt
  · exact le_of_not_lt h h hlt

theorem le_total_of_not_nan (ha : isNaN a = false) (hb : isNaN b = false) : a ≤ b ∨ b ≤ a := by
  by_cases hlt : a < b
  · exact .inl (le_of_lt hlt)
  · exact .inr (le_of_not_lt ha hb hlt)

theorem lt_of_lt_of_le (hab : a < b) (hbc : b ≤ c) : a < c := by
  by_contra hlt
  have hca := le_of_not_lt (isNaN_left (le_of_lt hab)) (isNaN_right hbc) hlt
  exact not_lt_of_le (le_trans hbc hca) hab

theorem Alike.le (h : Alike a b) (ha : isNaN a = false) : a ≤ b := by
  rcases h with rfl | ⟨hab, -⟩
  · exact le_refl_of_not_nan ha
  · exact hab

theorem Alike.lt_iff (h : Alike a b) : c < a ↔ c < b := by
  rcases h with rfl | ⟨hab, hba⟩
  · exact Iff.rfl
  · exact ⟨fun hlt => lt_of_lt_of_le hlt hab, fun hlt => lt_of_lt_of_le hlt hba⟩

theorem Alike.le_iff (h : Alike a b) : a ≤ c ↔ b ≤ c := by
  rcases h with rfl | ⟨hab, hba⟩
  · exact Iff.rfl
  · exact ⟨le_trans hba, le_trans hab⟩

theorem le_larger (h : isNaN b = false) (a : α) : b ≤ larger a b := by
  unfold larger
  split_ifs with hx
  · simp only [h, Bool.false_or, decide_eq_true_eq] at hx
    exact le_of_lt hx
  · exact le_refl_of_not_nan h

theorem smaller_le (h : isNaN b = false) (a : α) : smaller a b ≤ b := by
  unfold smaller
  split_ifs with hx
  · simp only [h, Bool.false_or, decide_eq_true_eq] at hx
    exact le_of_lt hx
  · exact le_refl_of_not_nan h

/-- Of two numbers the smaller one is above what is below both. A `NaN` need not be. -/
theorem le_smaller (hb : c ≤ b) (ha : a < b → c ≤ a) : c ≤ smaller a b := by
  unfold smaller
  split_ifs with hx
  · simp only [isNaN_right hb, Bool.false_or, decide_eq_true_eq] at hx
    exact ha hx
  · exact hb

theorem larger_le_larger (b : α) (h : a ≤ c) : larger a b ≤ larger c b := by
  by_cases hb : isNaN b = true
  · simpa [larger, hb] using h
  · rw [Bool.not_eq_true] at hb
    by_cases hlt : b < a
    · have hgreater : b < c := lt_of_lt_of_le hlt h
      simpa [larger, hlt, hgreater] using h
    · have hkept : larger a b = b := by simp [larger, hb, hlt]
      rw [hkept]
      exact le_larger hb c

theorem smaller_le_smaller (b : α) (h : a ≤ c) : smaller a b ≤ smaller c b := by
  by_cases hb : isNaN b = true
  · simpa [smaller, hb] using h
  · rw [Bool.not_eq_true] at hb
    refine le_smaller (smaller_le hb a) fun hlt => ?_
    have hless : a < b := by
      by_contra hnot
      exact not_lt_of_le (le_trans (le_of_not_lt (isNaN_left h) hb hnot) h) hlt
    simpa [smaller, hless] using h

/-- Any number is moved into limits that are in order, a `NaN` too. -/
theorem clamp_mem (h : lower ≤ upper) (x : α) :
    lower ≤ clamp lower upper x ∧ clamp lower upper x ≤ upper :=
  ⟨le_smaller h fun _ => le_larger (isNaN_left h) x, smaller_le (isNaN_right h) _⟩

/-- A number within the limits stays, or is moved onto a limit that is no further on. -/
theorem clamp_cases (hl : lower ≤ x) (hu : x ≤ upper) :
    clamp lower upper x = x ∨ clamp lower upper x = lower ∧ x ≤ lower ∨
      clamp lower upper x = upper ∧ upper ≤ x := by
  have hm : larger x lower = x ∨ larger x lower = lower ∧ x ≤ lower := by
    unfold larger
    split_ifs with hx
    · exact .inl rfl
    · simp only [Bool.or_eq_true, decide_eq_true_eq, not_or] at hx
      exact .inr ⟨rfl, le_of_not_lt (isNaN_left hl) (isNaN_right hl) hx.2⟩
  unfold clamp smaller
  split_ifs with hx
  · rcases hm with hm | hm
    · exact .inl hm
    · exact .inr (.inl hm)
  · simp only [Bool.or_eq_true, decide_eq_true_eq, not_or] at hx
    refine .inr (.inr ⟨rfl, ?_⟩)
    rcases hm with hm | ⟨hm, -⟩
    · rw [hm] at hx
      exact le_of_not_lt (isNaN_left hu) (isNaN_right hu) hx.2
    · rw [hm] at hx
      exact le_trans (le_of_not_lt (isNaN_left hl) (isNaN_right hu) hx.2) hl

/-- A number that is moved although it lies within the limits is moved onto an equal one. -/
theorem clamp_alike (hl : lower ≤ x) (hu : x ≤ upper) : Alike (clamp lower upper x) x := by
  rcases clamp_cases hl hu with h | ⟨h, hle⟩ | ⟨h, hle⟩
  · exact .inl h
  · rw [h]
    exact .inr ⟨hl, hle⟩
  · rw [h]
    exact .inr ⟨hle, hu⟩

/-- Only a limit that is zero can be equal to a number and not the same. -/
theorem clamp_eq [Congruent α] (hl : lower ≤ x) (hu : x ≤ upper) (hlower : lower < 0 ∨ 0 < lower)
    (hupper : upper < 0 ∨ 0 < upper) : clamp lower upper x = x := by
  have heq : ∀ {a : α}, Alike a x → a < 0 ∨ 0 < a → a = x := by
    intro a ha hzero
    rcases hzero with hneg | hpos
    · exact Congruent.eq_of_neg ha hneg
    · exact Congruent.eq_of_pos ha hpos
  rcases clamp_cases hl hu with h | ⟨h, hle⟩ | ⟨h, hle⟩
  · exact h
  · exact h.trans (heq (.inr ⟨hl, hle⟩) hlower)
  · exact h.trans (heq (.inr ⟨hle, hu⟩) hupper)

end Scalar

end ParameterScan
