import Mathlib.Analysis.SpecialFunctions.Log.Base
import Mathlib.Data.List.Range
import ParameterScan.Proofs.Scan.OpenSide

/-!
# Layout of an axis

In exact arithmetic the points by count are those of an arithmetic progression from end to end; on a
logarithmic axis their powers of ten are those of a geometric one, which nothing moves. Points by
step are those of an arithmetic progression until the range has no room for another one. The slack
lets a last point in that would pass the upper end by a small part of a step, and the point is moved
back onto it; so the last gap can be shorter by that part, and what is left above the last point is
less than the rest of a step.
-/
namespace ParameterScan

open scoped Exact

section Range

variable {τ : Type} {f : ℕ → τ} {n : ℕ}

theorem head?_map_range : ((List.range (n + 1)).map f).head? = some (f 0) := by
  simp [List.head?_range]

theorem getLast?_map_range : ((List.range (n + 1)).map f).getLast? = some (f n) := by
  simp [List.getLast?_range]

theorem isChain_map_range {r : τ → τ → Prop} (h : ∀ i, i + 1 < n → r (f i) (f (i + 1))) :
    ((List.range n).map f).IsChain r := by
  rw [List.isChain_map, List.isChain_range]
  exact fun i hi => h i (by omega)

theorem pairwise_map_range {r : τ → τ → Prop} (h : ∀ i j, i < j → j < n → r (f i) (f j)) :
    ((List.range n).map f).Pairwise r := by
  rw [List.pairwise_map]
  refine List.pairwise_lt_range.imp_of_mem fun {i j} _ hj hij => ?_
  exact h i j hij (List.mem_range.mp hj)

end Range

section Layouts

variable (lower upper : ℝ) (xs : List ℝ)

/-- Rising values of which the first and the last one are the ends of a range. -/
structure FromEndToEnd : Prop where
  increasing : xs.Pairwise (· < ·)
  head_eq : xs.head? = some lower
  last_eq : xs.getLast? = some upper

def EqualDifferences : Prop := ∃ d, xs.IsChain fun x y => y - x = d

def EqualRatios : Prop := ∃ q, xs.IsChain fun x y => y / x = q

/-- Values a step apart from the lower end on. Only the last gap may be shorter, and by no more than
a single-precision unit of a step; above the last value there is no room for the rest of one. -/
structure ByStep (step : ℝ) : Prop where
  head_eq : xs.head? = some lower
  increasing : xs.Pairwise (· < ·)
  le_upper : ∀ x ∈ xs, x ≤ upper
  gap_eq : ∀ (i : ℕ) (h : i + 2 < xs.length), xs[i + 1] - xs[i] = step
  gap_mem : ∀ (i : ℕ) (h : i + 1 < xs.length),
    (1 - 1 / 2 ^ 23) * step ≤ xs[i + 1] - xs[i] ∧ xs[i + 1] - xs[i] ≤ step
  room : ∃ x, xs.getLast? = some x ∧ upper - x < (1 - 1 / 2 ^ 23) * step

end Layouts

namespace Spacing

/-- Points by count are an arithmetic progression up to the last one. -/
theorem linspace_eq_map (x y : ℝ) (n : ℕ) :
    linspace x y (n + 2) = (List.range (n + 2)).map fun i : ℕ => x + (y - x) / (n + 1) * i := by
  have hgaps : ((n + 2 : ℕ) : ℝ) - 1 = n + 1 := by
    push_cast
    ring
  have hstep : evenStep x y (n + 2) = (y - x) / (n + 1) := by
    rw [evenStep, Scalar.real_one]
    exact congrArg ((y - x) / ·) hgaps
  have hlast : x + (y - x) / (n + 1) * (n + 1 : ℕ) = y := by
    have hne : (n + 1 : ℝ) ≠ 0 := by positivity
    push_cast
    field_simp
    ring
  rw [linspace, List.range_succ (n := n + 1), List.map_append, hstep, List.map_singleton, hlast]
  rfl

variable {lower upper step : ℝ}

/-- The number of points by step, less one. -/
noncomputable def gaps (lower upper step : ℝ) : ℕ := ⌊(upper - lower) / step + 1 / 2 ^ 23⌋₊

theorem stepCount_eq (h : lower < upper) (hstep : 0 < step) :
    stepCount lower upper step = gaps lower upper step + 1 := by
  have hwidth : 0 ≤ (upper - lower) / step + 1 / 2 ^ 23 := by
    have hpos := div_pos (sub_pos.mpr h) hstep
    positivity
  have hslack : (slack : ℝ) = 1 / 2 ^ 23 := by
    rw [slack, Scalar.halfPow, Scalar.real_one]
    exact congrArg (1 / ·) (Nat.cast_pow 2 23)
  have hfloor : Scalar.floor ((upper - lower) / step + 1 / 2 ^ 23) =
      (gaps lower upper step : ℝ) := (natCast_floor_eq_intCast_floor hwidth).symm
  rw [stepCount, hslack, hfloor, Scalar.real_larger, Scalar.real_zero, Scalar.real_one,
    max_eq_left (Nat.cast_nonneg _)]

theorem stepped_eq_map (h : lower < upper) (hstep : 0 < step) :
    stepped lower upper step =
      (List.range (gaps lower upper step + 1)).map fun i : ℕ => min (lower + step * i) upper := by
  have htoNat : Scalar.toNat (gaps lower upper step + 1 : ℝ) = gaps lower upper step + 1 :=
    (congrArg Nat.floor (Nat.cast_succ _).symm).trans (Nat.floor_natCast _)
  rw [stepped, stepCount_eq h hstep, htoNat]
  simp only [Scalar.real_smaller]
  rfl

theorem stepPoint_le_of_lt_gaps (h : lower < upper) (hstep : 0 < step) {i : ℕ}
    (hi : i < gaps lower upper step) : lower + step * i ≤ upper - (1 - 1 / 2 ^ 23) * step := by
  have hwidth := div_pos (sub_pos.mpr h) hstep
  have hfloor : (gaps lower upper step : ℝ) ≤ (upper - lower) / step + 1 / 2 ^ 23 :=
    Nat.floor_le (by positivity)
  have hnext : (i + 1 : ℝ) ≤ gaps lower upper step := by exact_mod_cast hi
  have hsteps : i + 1 - 1 / 2 ^ 23 ≤ (upper - lower) / step := by linarith
  rw [le_div_iff₀ hstep] at hsteps
  linarith

theorem lt_stepPoint_gaps (hstep : 0 < step) :
    upper - (1 - 1 / 2 ^ 23) * step < lower + step * gaps lower upper step := by
  have hfloor : (upper - lower) / step + 1 / 2 ^ 23 < gaps lower upper step + 1 :=
    Nat.lt_floor_add_one _
  have hsteps : (upper - lower) / step < gaps lower upper step + 1 - 1 / 2 ^ 23 := by linarith
  rw [div_lt_iff₀ hstep] at hsteps
  linarith

/-- What is left of a step when the slack is taken off. -/
theorem rest_pos (hstep : 0 < step) : 0 < (1 - 1 / 2 ^ 23) * step := by
  apply mul_pos _ hstep
  norm_num

theorem byStep_stepped (h : lower < upper) (hstep : 0 < step) :
    ByStep lower upper (stepped lower upper step) step := by
  have hrest := rest_pos hstep
  have hinner : ∀ i < gaps lower upper step, min (lower + step * i) upper = lower + step * i := by
    intro i hi
    have hle := stepPoint_le_of_lt_gaps h hstep hi
    exact min_eq_left (by linarith)
  rw [stepped_eq_map h hstep]
  constructor
  · rw [head?_map_range, Nat.cast_zero, mul_zero, add_zero, min_eq_left h.le]
  · apply pairwise_map_range
    intro i j hij hj
    have hi : i < gaps lower upper step := by omega
    have hle := stepPoint_le_of_lt_gaps h hstep hi
    have hcast : (i : ℝ) < j := by exact_mod_cast hij
    rw [hinner i hi, lt_min_iff]
    constructor
    · gcongr
    · linarith
  · intro x hx
    obtain ⟨i, -, rfl⟩ := List.mem_map.mp hx
    exact min_le_right _ _
  · intro i hi
    rw [List.length_map, List.length_range] at hi
    rw [List.getElem_map, List.getElem_map, List.getElem_range, List.getElem_range,
      hinner i (by omega), hinner (i + 1) (by omega)]
    push_cast
    ring
  · intro i hi
    rw [List.length_map, List.length_range] at hi
    have hle := stepPoint_le_of_lt_gaps h hstep (Nat.lt_of_succ_lt_succ hi)
    rw [List.getElem_map, List.getElem_map, List.getElem_range, List.getElem_range,
      hinner i (by omega), le_sub_iff_add_le, sub_le_iff_le_add, le_min_iff]
    push_cast
    have hroom : (1 - 1 / 2 ^ 23) * step ≤ step := by linarith
    exact ⟨⟨by linarith, by linarith⟩, (min_le_left _ _).trans (by linarith)⟩
  · refine ⟨_, getLast?_map_range, ?_⟩
    rw [sub_lt_comm, lt_min_iff]
    exact ⟨lt_stepPoint_gaps hstep, by linarith⟩

end Spacing

namespace Axis

variable {lower upper : ℝ}

/-- The ratio of neighbours among points by count that are evenly spaced in powers of ten. -/
noncomputable def ratio (lower upper : ℝ) (n : ℕ) : ℝ :=
  10 ^ ((Real.logb 10 upper - Real.logb 10 lower) / (n + 1))

theorem one_lt_ratio (hpos : 0 < lower) (h : lower < upper) (n : ℕ) : 1 < ratio lower upper n := by
  apply Real.one_lt_rpow (by norm_num)
  have hlog := Real.logb_lt_logb (b := 10) (by norm_num) hpos h
  have hgap := sub_pos.mpr hlog
  positivity

theorem mul_ratio_pow (hpos : 0 < lower) (h : lower < upper) (n : ℕ) :
    lower * ratio lower upper n ^ (n + 1) = upper := by
  have hgaps : (n + 1 : ℝ) ≠ 0 := by positivity
  rw [ratio, ← Real.rpow_natCast, ← Real.rpow_mul (by norm_num)]
  push_cast
  rw [div_mul_cancel₀ _ hgaps, Real.rpow_sub (by norm_num),
    Real.rpow_logb (by norm_num) (by norm_num) hpos,
    Real.rpow_logb (by norm_num) (by norm_num) (hpos.trans h), mul_div_cancel₀ _ hpos.ne']

/-- A point that is evenly spaced in powers of ten. -/
theorem tenTo_progression (hpos : 0 < lower) (n i : ℕ) :
    (10 : ℝ) ^ (Real.logb 10 lower + (Real.logb 10 upper - Real.logb 10 lower) / (n + 1) * i) =
      lower * ratio lower upper n ^ i := by
  rw [Real.rpow_add (by norm_num), Real.rpow_logb (by norm_num) (by norm_num) hpos,
    Real.rpow_mul (by norm_num), Real.rpow_natCast, ratio]

/-- The points of a geometric progression from end to end lie in the range. -/
theorem progression_mem (hpos : 0 < lower) (h : lower < upper) {n i : ℕ} (hi : i ≤ n + 1) :
    lower ≤ lower * ratio lower upper n ^ i ∧ lower * ratio lower upper n ^ i ≤ upper := by
  have hratio := (one_lt_ratio hpos h n).le
  constructor
  · exact le_mul_of_one_le_right hpos.le (one_le_pow₀ hratio)
  · calc lower * ratio lower upper n ^ i ≤ lower * ratio lower upper n ^ (n + 1) := by gcongr
      _ = upper := mul_ratio_pow hpos h n

/-- The values on a logarithmic axis are powers of ten, moved into the range. -/
theorem linearValues_make_log (lower upper : ℝ) (layout : Layout ℝ) :
    (make lower upper layout true).linearValues =
      (Spacing.linspace (Real.logb 10 lower) (Real.logb 10 upper)
        (points lower upper layout).length).map fun v => Scalar.clamp lower upper (10 ^ v) := rfl

/-- Nothing has to be moved. -/
theorem linearValues_log (hpos : 0 < lower) (h : lower < upper) {layout : Layout ℝ} {n : ℕ}
    (hn : (points lower upper layout).length = n + 2) :
    (make lower upper layout true).linearValues =
      (List.range (n + 2)).map fun i => lower * ratio lower upper n ^ i := by
  rw [linearValues_make_log, hn, Spacing.linspace_eq_map, List.map_map]
  apply List.map_congr_left
  intro i hi
  obtain ⟨hlower, hupper⟩ := progression_mem hpos h
    (Nat.le_of_lt_succ (List.mem_range.mp hi) : i ≤ n + 1)
  simp only [Function.comp_apply, tenTo_progression hpos, Scalar.clamp, Scalar.real_larger,
    Scalar.real_smaller, max_eq_left hlower, min_eq_left hupper]

theorem linearValues_log_one (hpos : 0 < lower) (h : lower < upper) {layout : Layout ℝ}
    (hone : (points lower upper layout).length = 1) :
    (make lower upper layout true).linearValues = [lower] := by
  rw [linearValues_make_log, hone, Spacing.linspace, List.map_singleton, Scalar.clamp,
    Real.rpow_logb (by norm_num) (by norm_num) hpos, Scalar.real_larger, max_self,
    Scalar.real_smaller, min_eq_left h.le]

/-- Points by count on a linear axis. -/
theorem linear_count (h : lower < upper) (n : ℕ) :
    let xs := (make lower upper (.count (n + 2)) false).linearValues
    FromEndToEnd lower upper xs ∧ EqualDifferences xs := by
  intro xs
  have hgaps : (n + 1 : ℝ) ≠ 0 := by positivity
  have hstep : 0 < (upper - lower) / (n + 1) := by
    have hwidth := sub_pos.mpr h
    positivity
  have hxs : xs = (List.range (n + 2)).map fun i : ℕ => lower + (upper - lower) / (n + 1) * i :=
    (linearValues_make _ _ _).trans (Spacing.linspace_eq_map lower upper n)
  rw [hxs]
  refine ⟨⟨?_, ?_, ?_⟩, (upper - lower) / (n + 1), ?_⟩
  · apply pairwise_map_range
    intro i j hij _
    gcongr
  · rw [head?_map_range, Nat.cast_zero, mul_zero, add_zero]
  · rw [getLast?_map_range, Nat.cast_add_one, div_mul_cancel₀ _ hgaps, add_sub_cancel]
  · apply isChain_map_range
    intro i _
    push_cast
    ring

/-- A logarithmic axis of two points or more. -/
theorem log_layout (hpos : 0 < lower) (h : lower < upper) {layout : Layout ℝ} {n : ℕ}
    (hn : (points lower upper layout).length = n + 2) :
    let xs := (make lower upper layout true).linearValues
    FromEndToEnd lower upper xs ∧ EqualRatios xs := by
  intro xs
  have hratio := one_lt_ratio hpos h n
  have hratio_pos := one_pos.trans hratio
  have hxs : xs = (List.range (n + 2)).map fun i => lower * ratio lower upper n ^ i :=
    linearValues_log hpos h hn
  rw [hxs]
  refine ⟨⟨?_, ?_, ?_⟩, ratio lower upper n, ?_⟩
  · apply pairwise_map_range
    intro i j hij _
    gcongr
  · rw [head?_map_range, pow_zero, mul_one]
  · rw [getLast?_map_range, mul_ratio_pow hpos h]
  · apply isChain_map_range
    intro i _
    rw [pow_succ, ← mul_assoc]
    exact mul_div_cancel_left₀ _ (by positivity)

theorem count_layout (h : lower < upper) (n : ℕ) {log : Bool} (hlog : log = true → 0 < lower) :
    let xs := (make lower upper (.count (n + 2)) log).linearValues
    xs.length = n + 2 ∧ FromEndToEnd lower upper xs ∧ (log = false → EqualDifferences xs) ∧
      (log = true → EqualRatios xs) := by
  intro xs
  have hlength : (points lower upper (.count (n + 2))).length = n + 2 :=
    Spacing.length_linspace lower upper (n + 2)
  refine ⟨(length_linearValues _ _ _ _).trans hlength, ?_⟩
  cases log with
  | false =>
      obtain ⟨hends, hdifferences⟩ := linear_count h n
      exact ⟨hends, fun _ => hdifferences, nofun⟩
  | true =>
      obtain ⟨hends, hratios⟩ := log_layout (hlog rfl) h hlength
      exact ⟨hends, nofun, fun _ => hratios⟩

theorem length_points_spacing {step : ℝ} (h : lower < upper) (hstep : 0 < step) :
    (points lower upper (.spacing step)).length = Spacing.gaps lower upper step + 1 := by
  rw [points, Spacing.stepped_eq_map h hstep, List.length_map, List.length_range]

/-- A logarithmic axis by step may have a single point. -/
theorem log_spacing {step : ℝ} (hpos : 0 < lower) (h : lower < upper) (hstep : 0 < step) :
    let xs := (make lower upper (.spacing step) true).linearValues
    EqualRatios xs ∧ xs.head? = some lower ∧
      (2 ≤ xs.length → FromEndToEnd lower upper xs) := by
  intro xs
  have hlength := length_points_spacing h hstep
  cases hgaps : Spacing.gaps lower upper step with
  | zero =>
      rw [hgaps] at hlength
      have hvalues : xs = [lower] := linearValues_log_one hpos h hlength
      rw [hvalues]
      exact ⟨⟨1, List.isChain_singleton _⟩, rfl, fun htwo => absurd htwo (by simp)⟩
  | succ n =>
      rw [hgaps] at hlength
      obtain ⟨hends, hratios⟩ := log_layout hpos h hlength
      exact ⟨hratios, hends.head_eq, fun _ => hends⟩

end Axis

namespace GridRequest

variable {a : ℕ} {p : Parameter ℝ} {r : Range ℝ} {layout : Layout ℝ} {log : Bool} {made : Axis ℝ}

/-- What is checked of an axis that is accepted. -/
theorem checks_of_axis (h : axis a p r layout log = .ok made) :
    made.lower < made.upper ∧ made = Axis.make made.lower made.upper layout log ∧
      checkSteps a (made.lower, made.upper) layout = .ok () ∧
      checkLog a (made.lower, made.upper) log = .ok () := by
  obtain ⟨hlt, hmade⟩ := axis_eq_ok h
  obtain ⟨_, _, h⟩ := exists_of_bind_eq_ok h
  obtain ⟨_, _, h⟩ := exists_of_bind_eq_ok h
  obtain ⟨_, hsteps, h⟩ := exists_of_bind_eq_ok h
  obtain ⟨_, hlog, _⟩ := exists_of_bind_eq_ok h
  subst hmade
  exact ⟨hlt, rfl, hsteps, hlog⟩

theorem pos_of_checkLog (h : checkLog a r true = .ok ()) : 0 < r.1 := by
  have hpos : 0 < r.1 ∧ 0 < r.2 := by simpa [checkLog] using h
  exact hpos.1

theorem gaps_lt_maxStepped {step : ℝ} (hr : r.1 < r.2) (hstep : 0 < step)
    (h : checkSteps a r (.spacing step) = .ok ()) :
    Spacing.gaps r.1 r.2 step + 1 ≤ maxStepped := by
  have hcount : Spacing.stepCount r.1 r.2 step ≤ Scalar.ofNat maxStepped := by
    simpa [checkSteps] using h
  rw [Spacing.stepCount_eq hr hstep, ← Nat.cast_succ] at hcount
  exact Nat.cast_le.mp hcount

end GridRequest

/-- In exact arithmetic, on any fit, each axis of a grid that is built has a range of some width,
above zero if it is logarithmic. By count its values are as many as asked for, two or more, and rise
from end to end with equal differences, or equal ratios on a logarithmic axis. By step there are as
many on a logarithmic axis as on a linear one, from one to a million: on the linear axis a step
apart as far as there is room, on the logarithmic one in equal ratios from the lower end, and up to
the upper one if there are two. -/
theorem axis_laid_out {φ : Type} [Fit φ ℝ] {n : ℕ} {fit after : φ} {idx : Vector ℕ n}
    {req : GridRequest ℝ n} {grid : Grid ℝ n} (hbuild : req.build fit idx = (after, .ok grid))
    (a : Fin n) :
    let made := grid.axes.get a
    let xs := made.linearValues
    made.lower < made.upper ∧ (req.log.get a = true → 0 < made.lower) ∧
      (∀ count, req.layout.get a = .count count →
        2 ≤ count ∧ xs.length = count ∧ FromEndToEnd made.lower made.upper xs ∧
          (req.log.get a = false → EqualDifferences xs) ∧
          (req.log.get a = true → EqualRatios xs)) ∧
      ∀ step, req.layout.get a = .spacing step →
        xs.length = (Axis.make made.lower made.upper (.spacing step) false).linearValues.length ∧
          1 ≤ xs.length ∧ xs.length ≤ 1000000 ∧
          (req.log.get a = false → ByStep made.lower made.upper xs step) ∧
          (req.log.get a = true → EqualRatios xs ∧ xs.head? = some made.lower ∧
            (2 ≤ xs.length → FromEndToEnd made.lower made.upper xs)) := by
  intro made xs
  obtain ⟨hlayout, r, haxis⟩ := GridRequest.build_eq_ok hbuild a
  obtain ⟨hlt, hmade, hsteps, hlog⟩ := GridRequest.checks_of_axis haxis
  have hpositive : req.log.get a = true → 0 < made.lower := by
    intro htrue
    rw [htrue] at hlog
    exact GridRequest.pos_of_checkLog hlog
  refine ⟨hlt, hpositive, fun count hcount => ?_, fun step hstep => ?_⟩
  · rw [hcount] at hlayout hmade
    obtain ⟨m, rfl⟩ := exists_of_checkLayout hlayout
    have hxs : xs =
        (Axis.make made.lower made.upper (.count (m + 2)) (req.log.get a)).linearValues :=
      congrArg Axis.linearValues hmade
    rw [hxs]
    exact ⟨by omega, Axis.count_layout hlt m hpositive⟩
  · rw [hstep] at hlayout hmade hsteps
    have hpos : 0 < step := Scalar.real_zero ▸ pos_of_checkLayout hlayout
    have hmany := GridRequest.gaps_lt_maxStepped hlt hpos hsteps
    have hxs : xs =
        (Axis.make made.lower made.upper (.spacing step) (req.log.get a)).linearValues :=
      congrArg Axis.linearValues hmade
    have hlength : xs.length = Spacing.gaps made.lower made.upper step + 1 := by
      rw [hxs, Axis.length_linearValues, Axis.length_points_spacing hlt hpos]
    refine ⟨?_, by omega, hlength ▸ hmany, fun hlinear => ?_, fun hlogarithmic => ?_⟩
    · rw [hxs, Axis.length_linearValues, Axis.length_linearValues]
    · rw [hxs, hlinear, Axis.linearValues_make]
      exact Spacing.byStep_stepped hlt hpos
    · rw [hxs, hlogarithmic]
      exact Axis.log_spacing (hpositive hlogarithmic) hlt hpos

/-- A little more than a third. -/
noncomputable def longThird : ℝ := (1 + 1 / 2 ^ 25) / 3

/-- Three points of two decades, and a range of one by steps of which three do not quite fit. -/
noncomputable def decadesAndSteps : GridRequest ℝ 2 where
  lower := some #v[1, 0]
  upper := some #v[100, 1]
  layout := #v[.count 3, .spacing longThird]
  factor := 1
  log := #v[true, false]

theorem longThird_pos : 0 < longThird := by
  unfold longThird
  positivity

theorem gaps_longThird : Spacing.gaps 0 1 longThird = 3 := by
  rw [Spacing.gaps, longThird, Nat.floor_eq_iff (by positivity)]
  norm_num

theorem build_decadesAndSteps :
    decadesAndSteps.build measuredPoint #v[0, 0] = (measuredPoint,
      .ok ⟨#v[Axis.make 1 100 (.count 3) true, Axis.make 0 1 (.spacing longThird) false]⟩) := by
  have hlayouts : decadesAndSteps.checkLayouts = .ok () := by
    rw [GridRequest.checkLayouts, GridRequest.forM_eq_ok_iff]
    intro a _
    fin_cases a
    · rfl
    · have hpositive : GridRequest.positiveFinite longThird = true := by
        simpa [GridRequest.positiveFinite] using longThird_pos
      exact if_pos hpositive
  have hranges : GridRequest.ranges measuredPoint #v[0, 0] decadesAndSteps =
      (measuredPoint, .ok #v[(1, 100), (0, 1)]) := rfl
  have hparameter : Fit.parameter measuredPoint 0 = ⟨"c0", 5, -100, 100, false⟩ := rfl
  have hdecades : GridRequest.axis 0 (Fit.parameter measuredPoint 0) (1, 100) (.count 3) true =
      .ok (Axis.make 1 100 (.count 3) true) := by
    have hlog : GridRequest.checkLog 0 ((1, 100) : GridRequest.Range ℝ) true = .ok () := by
      simp [GridRequest.checkLog]
    rw [hparameter]
    exact GridRequest.axis_of_inside (by norm_num) (by norm_num) le_rfl rfl hlog
  have hsteps : GridRequest.axis 1 (Fit.parameter measuredPoint 0) (0, 1) (.spacing longThird)
      false = .ok (Axis.make 0 1 (.spacing longThird) false) := by
    have hcount : Spacing.stepCount (0 : ℝ) 1 longThird ≤ Scalar.ofNat 1000000 := by
      rw [Spacing.stepCount_eq one_pos longThird_pos, gaps_longThird, ← Nat.cast_succ]
      exact Nat.cast_le.mpr (by norm_num)
    rw [hparameter]
    exact GridRequest.axis_of_inside (by norm_num) one_pos (by norm_num) (if_pos hcount) rfl
  have haxes : decadesAndSteps.axes measuredPoint #v[0, 0] #v[(1, 100), (0, 1)] =
      .ok #v[Axis.make 1 100 (.count 3) true, Axis.make 0 1 (.spacing longThird) false] := by
    refine vector_mapM_eq_ok_iff.mpr ?_
    exact congrArg₂ (fun x y => [x, y]) hdecades hsteps
  rw [GridRequest.build_of_ranges hlayouts hranges, haxes]
  rfl

/-- Three points in equal ratios; four points, although three steps pass the end by a part of the
slack. -/
theorem decadesAndSteps_laid_out : ∃ grid : Grid ℝ 2,
    decadesAndSteps.build measuredPoint #v[0, 0] = (measuredPoint, .ok grid) ∧
      (grid.axes.get 0).linearValues.length = 3 ∧
      FromEndToEnd 1 100 (grid.axes.get 0).linearValues ∧
      EqualRatios (grid.axes.get 0).linearValues ∧
      (grid.axes.get 1).linearValues.length = 4 ∧
      ByStep 0 1 (grid.axes.get 1).linearValues longThird := by
  refine ⟨_, build_decadesAndSteps, ?_⟩
  obtain ⟨-, -, hcount, -⟩ := axis_laid_out build_decadesAndSteps 0
  obtain ⟨-, hlength, hends, -, hratios⟩ := hcount 3 rfl
  obtain ⟨-, -, -, hspacing⟩ := axis_laid_out build_decadesAndSteps 1
  obtain ⟨hsame, -, -, hstep, -⟩ := hspacing longThird rfl
  have hfour : (Axis.points (0 : ℝ) 1 (.spacing longThird)).length = 4 := by
    rw [Axis.length_points_spacing one_pos longThird_pos, gaps_longThird]
  refine ⟨hlength, hends, hratios rfl, ?_, hstep rfl⟩
  exact (hsame.trans (Axis.length_linearValues _ _ _ _)).trans hfour

end ParameterScan
