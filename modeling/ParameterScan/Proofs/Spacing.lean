import ParameterScan.Grid.Build
import ParameterScan.Proofs.Scalar.Monotone

/-!
# Where evenly spaced points lie

Points by step are cut off at the upper end, and points on a logarithmic axis are moved into the
range. Points by count are computed, except for the last one, which is the upper end itself; they
rise, so they lie in the range as soon as the last one that is computed does. It need not: where the
range overflows the step is infinite and the first point is a `NaN`, and where the step is among the
smallest numbers it may be rounded up by a large part of itself. With a range that does not
overflow, a step that is a normal number and no more than `2⁵⁰` points the three roundings stay
below the one step that is left.
-/
namespace ParameterScan

section Ranges

variable {α : Type} [Scalar α]

/-- Every parameter value on an axis is a number between its ends. -/
def Axis.Contained (a : Axis α) : Prop := ∀ x ∈ a.linearValues, a.lower ≤ x ∧ x ≤ a.upper

/-- The last point that is computed without being cut off does not pass the upper end. -/
def Layout.EndsBelow (lower upper : α) : Layout α → Prop
  | .count n => Spacing.stepPoint lower (Spacing.evenStep lower upper n) (n - 2) ≤ upper
  | .spacing _ => True

theorem Axis.linearValues_make (lower upper : α) (layout : Layout α) :
    (make lower upper layout false).linearValues = points lower upper layout :=
  List.map_id (points lower upper layout)

/-- A count that passes the check is two or more. -/
theorem exists_of_checkLayout {n a k : Nat}
    (h : (GridRequest.checkLayout n a (.count k : Layout α)).isOk = true) : ∃ m, k = m + 2 := by
  by_cases hk : k ≤ 1
  · simp [GridRequest.checkLayout, hk, Except.isOk, Except.toBool] at h
  · exact ⟨k - 2, by omega⟩

/-- A step that passes the check is positive. -/
theorem pos_of_checkLayout {n a : Nat} {step : α}
    (h : (GridRequest.checkLayout n a (.spacing step)).isOk = true) : 0 < step := by
  by_contra hnot
  simp [GridRequest.checkLayout, GridRequest.positiveFinite, hnot, Except.isOk, Except.toBool] at h

theorem Spacing.length_linspace (lower upper : α) (n : Nat) :
    (linspace lower upper n).length = n := by
  fun_cases linspace lower upper n with
  | case1 => rfl
  | case2 => rfl
  | case3 n => simp

/-- A logarithmic axis has as many values as the linear one. -/
theorem Axis.length_linearValues (lower upper : α) (layout : Layout α) (log : Bool) :
    (make lower upper layout log).linearValues.length = (points lower upper layout).length := by
  cases log with
  | false => simp [linearValues_make]
  | true => simp [linearValues, make, Spacing.length_linspace]

variable [Scalar.Monotone α] {lower upper step x : α} {i n : Nat}

open Scalar.Ordered Scalar.Monotone

namespace Spacing

theorem le_stepPoint (hlower : Scalar.isFinite lower = true) (hstep : 0 ≤ step)
    (hpoint : Scalar.isNaN (stepPoint lower step i) = false) : lower ≤ stepPoint lower step i :=
  le_add hlower (mul_nonneg hstep (ofNat_le (Nat.zero_le i)) (isNaN_of_add hpoint))

/-- The points before a finite one are no greater. -/
theorem stepPoint_le (hlower : Scalar.isFinite lower = true) (hstep : 0 ≤ step)
    (hpoint : Scalar.isFinite (stepPoint lower step n) = true) (hi : i ≤ n) :
    stepPoint lower step i ≤ stepPoint lower step n := by
  obtain ⟨-, hproduct⟩ := isFinite_of_add hpoint
  obtain ⟨hfinite, hn⟩ := isFinite_of_mul hproduct
  have hi_finite : Scalar.isFinite (Scalar.ofNat i : α) = true :=
    isFinite_of_between isFinite_zero hn (ofNat_le (Nat.zero_le i)) (ofNat_le hi)
  have hle : step * Scalar.ofNat i ≤ step * Scalar.ofNat n :=
    mul_le_mul hstep hfinite hi_finite hn (ofNat_le hi)
  have hnonneg : 0 ≤ step * (Scalar.ofNat i : α) :=
    mul_nonneg hstep (ofNat_le (Nat.zero_le i)) (isNaN_left hle)
  exact add_le_add hlower (isFinite_of_between isFinite_zero hproduct hnonneg hle) hproduct hle

/-- Points by count lie in the range exactly when the last computed one does not pass its end. -/
theorem linspace_contained_iff (hlower : Scalar.isFinite lower = true)
    (hupper : Scalar.isFinite upper = true) (h : lower ≤ upper) :
    (∀ x ∈ linspace lower upper (n + 2), lower ≤ x ∧ x ≤ upper) ↔
      stepPoint lower (evenStep lower upper (n + 2)) n ≤ upper := by
  have hmem : ∀ i ≤ n, stepPoint lower (evenStep lower upper (n + 2)) i ∈
      linspace lower upper (n + 2) := fun i hi =>
    List.mem_append_left _ (List.mem_map_of_mem (List.mem_range.mpr (Nat.lt_succ_of_le hi)))
  refine ⟨fun hall => (hall _ (hmem n le_rfl)).2, fun hlast x hx => ?_⟩
  have hnan := isNaN_left hlast
  have hstep : 0 ≤ evenStep lower upper (n + 2) :=
    div_nonneg (sub_nonneg hlower hupper h) (gaps_pos n) (isNaN_of_mul (isNaN_of_add hnan))
  have hfinite : Scalar.isFinite (stepPoint lower (evenStep lower upper (n + 2)) n) = true :=
    isFinite_of_between hlower hupper (le_stepPoint hlower hstep hnan) hlast
  rcases List.mem_append.mp hx with hx | hx
  · obtain ⟨i, hi, rfl⟩ := List.mem_map.mp hx
    have hle := stepPoint_le hlower hstep hfinite (Nat.le_of_lt_succ (List.mem_range.mp hi))
    exact ⟨le_stepPoint hlower hstep (isNaN_left hle), le_trans hle hlast⟩
  · obtain rfl := List.mem_singleton.mp hx
    exact ⟨h, Scalar.le_refl_of_not_nan (isNaN_right h)⟩

/-- Points by step lie in the range. -/
theorem stepped_contained (hlower : Scalar.isFinite lower = true) (h : lower ≤ upper)
    (hstep : 0 ≤ step) : ∀ x ∈ stepped lower upper step, lower ≤ x ∧ x ≤ upper := by
  intro x hx
  obtain ⟨i, -, rfl⟩ := List.mem_map.mp hx
  refine ⟨Scalar.le_smaller h fun hlt => ?_, Scalar.smaller_le (isNaN_right h) _⟩
  exact le_stepPoint hlower hstep (isNaN_left (le_of_lt hlt))

end Spacing

namespace Axis

variable {layout : Layout α} {log : Bool}

theorem contained_of_log {a : Axis α} (hlog : a.log = true) (h : a.lower ≤ a.upper) :
    a.Contained := by
  intro x hx
  obtain ⟨v, -, rfl⟩ := List.mem_map.mp hx
  rw [toLinear, if_pos hlog]
  exact Scalar.clamp_mem h _

/-- An axis holds its values within its ends unless the points are by count and the last computed
one is off. -/
theorem contained_make_iff (hlower : Scalar.isFinite lower = true)
    (hupper : Scalar.isFinite upper = true) (h : lower ≤ upper) {a : Nat}
    (hlayout : (GridRequest.checkLayout n a layout).isOk = true) :
    (make lower upper layout log).Contained ↔ log = true ∨ layout.EndsBelow lower upper := by
  cases log with
  | true => exact iff_of_true (contained_of_log rfl h) (.inl rfl)
  | false =>
      unfold Contained
      rw [linearValues_make]
      simp only [Bool.false_eq_true, false_or]
      cases layout with
      | spacing step =>
          have hstep := pos_of_checkLayout hlayout
          exact iff_of_true (Spacing.stepped_contained hlower h (le_of_lt hstep)) trivial
      | count k =>
          obtain ⟨m, rfl⟩ := exists_of_checkLayout hlayout
          exact Spacing.linspace_contained_iff hlower hupper h

end Axis

end Ranges

namespace Double

/-- The least normal number, `2⁻¹⁰²²`. -/
def leastNormal : Float := 2.2250738585072014e-308

/-- A layout with a range that does not overflow, not too many points and a step that is a normal
number. A layout by step needs none of these. -/
def Ordinary (lower upper : Float) : Layout Float → Prop
  | .count n => n ≤ 2 ^ 50 ∧ (upper - lower).isFinite = true ∧
      leastNormal ≤ Spacing.evenStep lower upper n
  | .spacing _ => True

theorem value_leastNormal : value leastNormal = 2 ^ (-1022 : ℤ) := by
  have hbits : leastNormal = Float.ofBits 0x0010000000000000 := by decide +kernel
  have hunpacked : unpacked (Float.ofBits 0x0010000000000000) =
      .finite .positive (2 ^ 52) (-1074) (by norm_num) := by
    rfl
  rw [hbits, value, hunpacked, valueOf_finite, factor, one_mul, Nat.cast_pow, Nat.cast_ofNat,
    ← two_zpow_add_nat]
  norm_num

/-- The relative error of a rounding. -/
def unit : ℚ := 2 ^ (-52 : ℤ)

theorem IsRounded.le_of_normal {q : ℚ} {x : Float} (h : IsRounded q x) (hx : leastNormal ≤ x) :
    value x ≤ q * (1 + unit) := by
  obtain ⟨v, hv, hvalue⟩ := h.value_eq
  have hleast := value_le_of_le hx
  have hpos := two_zpow_pos (-1022)
  rw [value_leastNormal, hvalue] at hleast
  have hnonneg : 0 ≤ v := by
    by_contra hneg
    have hcapped := capped_mono (not_le.mp hneg).le
    rw [capped_eq (v := 0) (by simpa using beyond_pos)] at hcapped
    linarith
  have hle := capped_le hnonneg
  rw [hvalue]
  rcases hv with ⟨-, hrounds⟩ | ⟨-, hrounds⟩
  · exact hle.trans (hrounds.le_of_normal (hleast.trans hle))
  · linarith [hrounds.nonneg]

/-- The second and the third rounding take up less than the one step that is left. -/
theorem le_of_two_roundings {w step p : ℚ} {m : ℕ} (hm : m < 2 ^ 50) (hw : 0 ≤ w)
    (hstep : step ≤ w / (m + 1) * (1 + unit)) (hp : p ≤ step * m * (1 + unit)) :
    p * (1 + unit) ≤ w := by
  have hunit : unit = 1 / 2 ^ 52 := by norm_num [unit]
  have hm' : (m : ℚ) ≤ 2 ^ 50 := by exact_mod_cast hm.le
  have hslack : (1 + unit) ^ 3 * m ≤ m + 1 := by
    rw [hunit]
    nlinarith
  have hunit_pos : 0 ≤ 1 + unit := by
    rw [hunit]
    positivity
  calc p * (1 + unit) ≤ step * m * (1 + unit) * (1 + unit) := by gcongr
    _ ≤ w / (m + 1) * (1 + unit) * m * (1 + unit) * (1 + unit) := by gcongr
    _ = w * ((1 + unit) ^ 3 * m) / (m + 1) := by ring
    _ ≤ w * (m + 1) / (m + 1) := by gcongr
    _ = w := by field_simp

/-- The number of gaps between points by count is exact. -/
theorem isRounded_gaps {m : ℕ} (hm : m + 2 < 2 ^ 53) :
    IsRounded ((m + 1 : ℕ) : ℚ) (Float.ofNat (m + 2) - Float.ofNat 1) := by
  have hsub := isRounded_sub (isFinite_natural hm) (isFinite_natural (n := 1) (by norm_num))
  rw [value_natural hm, value_natural (by norm_num)] at hsub
  convert hsub using 1
  push_cast
  ring

theorem isFinite_of_nonneg_of_le {x y : Float} (hx : 0 ≤ x) (hy : y.isFinite = true)
    (h : value x ≤ value y) : x.isFinite = true := by
  obtain ⟨hnan, hnonneg⟩ := nonneg_iff.mp hx
  refine isFinite_of_value hnan (abs_lt.mpr ⟨?_, ?_⟩)
  · linarith [beyond_pos]
  · exact h.trans_lt (abs_lt.mp (abs_value_lt hy)).2

/-- The step between points by count is the range over the number of gaps, rounded twice. -/
theorem isRounded_evenStep {lower upper : Float} {m : ℕ} (hm : m + 2 < 2 ^ 53)
    (hrange : (upper - lower).isFinite = true) :
    IsRounded (value (upper - lower) / (m + 1 : ℕ)) (Spacing.evenStep lower upper (m + 2)) := by
  have hgaps := isRounded_gaps hm
  have hvalue := value_of_isRounded_natCast hgaps (by omega)
  have hfinite : (Float.ofNat (m + 2) - Float.ofNat 1).isFinite = true :=
    isFinite_of_value hgaps.isNaN (hvalue ▸ natCast_lt_beyond (by omega))
  rw [← hvalue]
  exact isRounded_div hrange hfinite (by rw [hvalue]; positivity)

/-- The last offset that is computed stays below the range by one more rounding. -/
theorem offset_le {w step : Float} {m : ℕ} (hm : m < 2 ^ 50) (hw : w.isFinite = true)
    (hnonneg : 0 ≤ value w) (hle : step ≤ w)
    (hstep : IsRounded (value w / (m + 1 : ℕ)) step) (hnormal : leastNormal ≤ step) :
    0 ≤ step * Float.ofNat m ∧ value (step * Float.ofNat m) * (1 + unit) ≤ value w := by
  have hstep_nonneg : 0 ≤ step := Scalar.Ordered.le_trans (by decide +kernel) hnormal
  have hstep_finite := isFinite_of_nonneg_of_le hstep_nonneg hw (value_le_of_le hle)
  have hproduct := isRounded_mul hstep_finite (isFinite_natural (n := m) (by omega))
  rw [value_natural (by omega)] at hproduct
  have hstep_value := (nonneg_iff.mp hstep_nonneg).2
  refine ⟨hproduct.nonneg (by positivity), ?_⟩
  rcases Nat.eq_zero_or_pos m with rfl | hpos
  · rw [Nat.cast_zero, mul_zero] at hproduct
    rw [value_of_isRounded_natCast (n := 0) (by simpa using hproduct) (by norm_num)]
    simpa using hnonneg
  · -- A product has a small relative error only if it is a normal number; it is a step or more.
    have hstep_le : value step ≤ value step * m :=
      le_mul_of_one_le_right hstep_value (by exact_mod_cast hpos)
    have hproduct_normal : leastNormal ≤ step * Float.ofNat m :=
      Scalar.Ordered.le_trans hnormal ((isRounded_value hstep_finite).le hproduct hstep_le)
    have hstep_normal := hstep.le_of_normal hnormal
    rw [Nat.cast_add, Nat.cast_one] at hstep_normal
    exact le_of_two_roundings hm hnonneg hstep_normal (hproduct.le_of_normal hproduct_normal)

/-- The last point that is computed is below the upper end when the step is a normal number. -/
theorem stepPoint_le_of_normal {lower upper : Float} {m : ℕ} (hlower : lower.isFinite = true)
    (hupper : upper.isFinite = true) (h : lower ≤ upper) (hm : m < 2 ^ 50)
    (hrange : (upper - lower).isFinite = true)
    (hnormal : leastNormal ≤ Spacing.evenStep lower upper (m + 2)) :
    Spacing.stepPoint lower (Spacing.evenStep lower upper (m + 2)) m ≤ upper := by
  have hstep := isRounded_evenStep (m := m) (by omega) hrange
  have hw := isRounded_sub hupper hlower
  have hexact := sub_nonneg.mpr (value_le_of_le h)
  change lower + Spacing.evenStep lower upper (m + 2) * Float.ofNat m ≤ upper
  generalize Spacing.evenStep lower upper (m + 2) = step at hnormal hstep ⊢
  generalize upper - lower = w at hrange hstep hw
  have hnonneg := (nonneg_iff.mp (hw.nonneg hexact)).2
  have hle : step ≤ w := by
    refine hstep.le (isRounded_value hrange) (div_le_self hnonneg ?_)
    exact_mod_cast Nat.le_add_left 1 m
  obtain ⟨hoffset, hoffset_le⟩ := offset_le hm hrange hnonneg hle hstep hnormal
  have hunit : 0 < unit := two_zpow_pos _
  have hoffset_value := (nonneg_iff.mp hoffset).2
  have hfinite : (step * Float.ofNat m).isFinite = true :=
    isFinite_of_nonneg_of_le hoffset hrange (by nlinarith)
  have hw_le := hw.le_of_normal (Scalar.Ordered.le_trans hnormal hle)
  have hsum : value (step * Float.ofNat m) ≤ value upper - value lower := by nlinarith
  exact (isRounded_add hlower hfinite).le (isRounded_value hupper) (by linarith)

theorem endsBelow_of_ordinary {lower upper : Float} {layout : Layout Float} {n a : ℕ}
    (hlower : lower.isFinite = true) (hupper : upper.isFinite = true) (h : lower ≤ upper)
    (hlayout : (GridRequest.checkLayout n a layout).isOk = true)
    (hordinary : Ordinary lower upper layout) : layout.EndsBelow lower upper := by
  cases layout with
  | spacing step => trivial
  | count k =>
      obtain ⟨hk, hrange, hnormal⟩ := hordinary
      obtain ⟨m, rfl⟩ := exists_of_checkLayout hlayout
      exact stepPoint_le_of_normal hlower hupper h (by omega) hrange hnormal

end Double

end ParameterScan
