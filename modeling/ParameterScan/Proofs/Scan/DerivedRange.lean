import ParameterScan.Proofs.Scalar.Extended
import ParameterScan.Proofs.Scan.OpenSide

/-!
# Derived ranges and the value they are derived around

With both sides open a range goes from offset to offset around the value, with the limit in place
of an offset that is missing or not a number. Among real numbers and special values no ends but real
ones are accepted: of an infinite range the middle is infinite or no number, and so one of the
widened ends is no number either. What is left is arithmetic. Neither a factor of one or more nor
clipping to limits that admit the value moves an end across it, and a greater factor moves both ends
outwards, or leaves them at the limits.
-/
namespace ParameterScan

open scoped Exact

namespace Extended

/-- The distance from an infinite number is infinite or none. -/
theorem abs_infinite_sub (s : Bool) (a : Extended) :
    Scalar.abs (infinite s - a) = infinite false ∨ Scalar.abs (infinite s - a) = nan := by
  cases a with
  | real x => cases s <;> exact .inl rfl
  | infinite t =>
      cases s <;> cases t
      · exact .inr rfl
      · exact .inl rfl
      · exact .inl rfl
      · exact .inr rfl
  | nan => exact .inr rfl

/-- At the same distance to both sides of an infinite number there are not two numbers. -/
theorem not_apart_infinite {y : ℝ} (hy : 0 < y) (s : Bool) (a : Extended) :
    ¬infinite s - real y * Scalar.abs (infinite s - a) <
      infinite s + real y * Scalar.abs (infinite s - a) := by
  have hfar : real y * infinite false = infinite false := by
    change mul (real y) (infinite false) = _
    simp [mul, negative, hy.ne', hy.not_gt]
  rcases abs_infinite_sub s a with h | h
  · rw [h, hfar]
    rintro ⟨l, hl, u, hu, -⟩
    cases s
    · cases hl
    · cases hu
  · rw [h]
    rintro ⟨l, hl, -⟩
    cases s <;> cases hl

end Extended

namespace GridRequest

open Extended (real)

/-- The widened range of real ends is that of the ends as they are. -/
theorem widen_real (factor l u : ℝ) :
    widen (real factor) (real l, real u) =
      (real (center (l, u) - reach factor (l, u)), real (center (l, u) + reach factor (l, u))) := by
  have h := Prod.ext_iff.mp (widen_eq factor (l, u))
  simp only [widen, Scalar.real_decimal, Scalar.real_abs] at h
  simp only [widen, Extended.decimal_real, Extended.add_real, Extended.sub_real,
    Extended.mul_real, Extended.abs_real]
  exact Prod.ext (congrArg real h.1) (congrArg real h.2)

theorem exists_real_of_widen_lt {factor : ℝ} (hfactor : 0 < factor) {r : Range Extended}
    (h : (widen (real factor) r).1 < (widen (real factor) r).2) :
    ∃ l u, r = (real l, real u) := by
  obtain ⟨l, u⟩ := r
  obtain ⟨x, hx⟩ : ∃ x, (0.5 : Extended) * (u + l) = real x := by
    have hends : ((0.5 : Extended) * (u + l) -
        real factor * Scalar.abs ((0.5 : Extended) * (u + l) - l)) <
        (0.5 : Extended) * (u + l) +
          real factor * Scalar.abs ((0.5 : Extended) * (u + l) - l) := h
    cases hmiddle : (0.5 : Extended) * (u + l) with
    | real x => exact ⟨x, rfl⟩
    | nan =>
        rw [hmiddle] at hends
        obtain ⟨y, hy, -⟩ := hends
        cases hy
    | infinite s =>
        rw [hmiddle] at hends
        exact absurd hends (Extended.not_apart_infinite hfactor s l)
  rw [Extended.decimal_real] at hx
  obtain ⟨y, hy⟩ := Extended.exists_of_mul_eq_real (by norm_num) hx
  obtain ⟨v, w, rfl, rfl, -⟩ := Extended.exists_of_add_eq_real hy
  exact ⟨w, v, rfl⟩

theorem reach_mono {less more : ℝ} (r : Range ℝ) (h : less ≤ more) :
    reach less r ≤ reach more r := by
  unfold reach
  gcongr

theorem widen_encloses {factor : ℝ} (hfactor : 1 ≤ factor) {r : Range ℝ} {v : ℝ} (hl : r.1 ≤ v)
    (hu : v ≤ r.2) : center r - reach factor r ≤ v ∧ v ≤ center r + reach factor r := by
  obtain ⟨hlower, hupper⟩ := reach_of_le (hl.trans hu) factor
  have hgrowth : 0 ≤ (factor - 1) * ((r.2 - r.1) / 2) := by
    apply mul_nonneg
    · linarith
    · linarith
  rw [hlower, hupper]
  constructor
  · linarith
  · linarith

end GridRequest

/-- The offsets of a parameter are on their own sides of the value, if they are there at all. -/
def ErrorEstimate.Surrounds {α : Type} [Scalar α] (e : ErrorEstimate α) (name : String) : Prop :=
  ∀ k, e.index? name = some k →
    (∀ b, e.lower.getD k none = some b → Scalar.isNaN b = true ∨ b ≤ 0) ∧
      ∀ b, e.upper.getD k none = some b → Scalar.isNaN b = true ∨ 0 ≤ b

namespace GridRequest

section Sides

variable {α : Type} [Scalar α] {n : ℕ}

/-- A request that leaves both sides open. -/
def derived (layout : Vector (Layout α) n) (log : Vector Bool n) (factor : α) :
    GridRequest α n where
  lower := none
  upper := none
  layout := layout
  factor := factor
  log := log

theorem sideEnd_some {b : α} (hb : Scalar.isNaN b = false) (value limit : α) :
    sideEnd none (some b) value limit = value + b := by
  simp [sideEnd, usable, Option.filter, hb]

/-- An open side ends at its limit, or at the value with an offset that is a number. -/
theorem sideEnd_none (offset : Option α) (value limit : α) :
    sideEnd none offset value limit = limit ∨
      ∃ b, offset = some b ∧ Scalar.isNaN b = false ∧
        sideEnd none offset value limit = value + b := by
  cases offset with
  | none => exact .inl rfl
  | some b =>
      by_cases hb : Scalar.isNaN b = true
      · exact .inl (by simp [sideEnd, usable, Option.filter, hb])
      · rw [Bool.not_eq_true] at hb
        exact .inr ⟨b, rfl, hb, sideEnd_some hb value limit⟩

end Sides

open Extended (real)

variable {n : ℕ} {layout : Vector (Layout Extended) n} {log : Vector Bool n}
  {estimate : ErrorEstimate Extended} {p : Parameter Extended} {a : Fin n}

section Value

variable {value limit : Extended} {offset : Option Extended} {x : ℝ}

theorem open_lower_le (hlimit : limit ≤ value)
    (hoffset : ∀ b, offset = some b → Scalar.isNaN b = true ∨ b ≤ 0)
    (h : sideEnd none offset value limit = real x) : real x ≤ value := by
  rcases sideEnd_none offset value limit with hside | ⟨b, hb, hnan, hside⟩
  · rwa [← h, hside]
  · obtain ⟨v, z, rfl, rfl, rfl⟩ := Extended.exists_of_add_eq_real (hside.symm.trans h)
    have hz : real z ≤ 0 := (hoffset _ hb).resolve_left (Bool.not_eq_true _ ▸ hnan)
    rw [Extended.zero_eq, Extended.real_le_real] at hz
    exact Extended.real_le_real.mpr (by linarith)

theorem le_open_upper (hlimit : value ≤ limit)
    (hoffset : ∀ b, offset = some b → Scalar.isNaN b = true ∨ 0 ≤ b)
    (h : sideEnd none offset value limit = real x) : value ≤ real x := by
  rcases sideEnd_none offset value limit with hside | ⟨b, hb, hnan, hside⟩
  · rwa [← h, hside]
  · obtain ⟨v, z, rfl, rfl, rfl⟩ := Extended.exists_of_add_eq_real (hside.symm.trans h)
    have hz : 0 ≤ real z := (hoffset _ hb).resolve_left (Bool.not_eq_true _ ▸ hnan)
    rw [Extended.zero_eq, Extended.real_le_real] at hz
    exact Extended.real_le_real.mpr (by linarith)

end Value

/-- Real ends of a range with both sides open lie on both sides of the value. -/
theorem exists_value_between {factor : Extended} {l u : ℝ} (hvalue : p.Admits p.value)
    (hoffsets : estimate.Surrounds p.name)
    (hends : (derived layout log factor).ends estimate p a = some (real l, real u)) :
    ∃ v, p.value = real v ∧ l ≤ v ∧ v ≤ u := by
  obtain ⟨k, hk, hsides⟩ := Option.map_eq_some_iff.mp hends
  obtain ⟨hlower, hupper⟩ := Prod.mk.inj hsides
  obtain ⟨hbelow, habove⟩ := hoffsets k hk
  exact Extended.exists_real_of_between (open_lower_le hvalue.1 hbelow hlower)
    (le_open_upper hvalue.2 habove hupper)

/-- Between opposite offsets the value is in the middle. -/
theorem center_of_opposite {factor s : Extended} {k : ℕ} {l u : ℝ}
    (hs : Scalar.isNaN s = false) (hk : estimate.index? p.name = some k)
    (hbelow : estimate.lower.getD k none = some (-s))
    (habove : estimate.upper.getD k none = some s)
    (hends : (derived layout log factor).ends estimate p a = some (real l, real u)) :
    (p.value + -s, p.value + s) = (real l, real u) ∧ p.value = real (center (l, u)) := by
  obtain ⟨k', hk', hsides⟩ := Option.map_eq_some_iff.mp hends
  obtain rfl := Option.some.inj (hk.symm.trans hk')
  rw [hbelow, habove] at hsides
  have hsum : (p.value + -s, p.value + s) = (real l, real u) := by
    rw [← hsides]
    exact congrArg₂ Prod.mk (sideEnd_some (Extended.isNaN_neg hs) _ _).symm
      (sideEnd_some hs _ _).symm
  obtain ⟨hl, hu⟩ := Prod.mk.inj hsum
  obtain ⟨v, z, hv, rfl, rfl⟩ := Extended.exists_of_add_eq_real hu
  have hcenter : center (l, v + z) = v := by
    rw [hv, Extended.neg_real, Extended.add_real] at hl
    rw [center, ← Extended.real.inj hl]
    ring
  exact ⟨hsum, hcenter.symm ▸ hv⟩

section Build

variable {φ : Type} [Fit φ Extended] {fit after : φ} {idx : Vector ℕ n} {grid : Grid Extended n}

/-- The axes of a grid that is built with both sides open: real ends, widened and clipped. -/
theorem exists_real_ends_of_build {factor : ℝ} (hfactor : 0 < factor)
    (hestimate : covarianceEstimate fit = (after, .ok estimate))
    (h : ((derived layout log (real factor)).build fit idx).2 = .ok grid) (a : Fin n) :
    let p := Fit.parameter after (idx.get a)
    ∃ l u, (∀ other, (derived layout log other).ends estimate p a = some (real l, real u)) ∧
      grid.axes.get a = Axis.make
        (Scalar.larger (real (center (l, u) - reach factor (l, u))) p.lower)
        (Scalar.smaller (real (center (l, u) + reach factor (l, u))) p.upper)
        (layout.get a) (log.get a) := by
  intro p
  obtain ⟨estimate', hestimate', haxes⟩ := exists_ends_of_build (.inl rfl) (Prod.ext rfl h)
  obtain ⟨hafter, hsame⟩ := Prod.mk.inj (hestimate.symm.trans hestimate')
  obtain rfl := Except.ok.inj hsame
  obtain ⟨r, hends, haxis⟩ := haxes a
  rw [← hafter] at hends haxis
  obtain ⟨_, hrange, -⟩ := exists_of_bind_eq_ok haxis
  obtain ⟨l, u, rfl⟩ := exists_real_of_widen_lt hfactor (lt_of_checkRange hrange)
  obtain ⟨-, hmade⟩ := axis_eq_ok haxis
  have hwiden : widen (derived layout log (real factor)).factor (real l, real u) = _ :=
    widen_real factor l u
  rw [hwiden] at hmade
  exact ⟨l, u, fun _ => hends, hmade⟩

end Build

end GridRequest

namespace Spacing

open Extended (real)

/-- The middle one of an odd number of points is half way. -/
theorem linspace_middle (v d : ℝ) {m : ℕ} (hm : 0 < m) :
    (linspace (real (v - d)) (real (v + d)) (2 * m + 1))[m]? = some (real v) := by
  obtain ⟨j, rfl⟩ := Nat.exists_eq_add_one.mpr hm
  have hgaps : ((2 * (j + 1) + 1 : ℕ) : ℝ) - 1 = 2 * (j + 1 : ℕ) := by
    push_cast
    ring
  have hstep : evenStep (real (v - d)) (real (v + d)) (2 * (j + 1) + 1) =
      real ((v + d - (v - d)) / (2 * (j + 1 : ℕ))) := by
    have hne : (2 * (j + 1 : ℕ) : ℝ) ≠ 0 := by positivity
    have hcount : (Scalar.ofNat (2 * (j + 1) + 1) : Extended) - 1 = real (2 * (j + 1 : ℕ)) := by
      rw [Extended.one_eq, ← hgaps]
      exact Extended.sub_real _ _
    rw [evenStep, hcount, Extended.sub_real, Extended.div_real _ hne]
  have hpoint : stepPoint (real (v - d)) (real ((v + d - (v - d)) / (2 * (j + 1 : ℕ)))) (j + 1) =
      real v := by
    have hhalf : v - d + (v + d - (v - d)) / (2 * (j + 1 : ℕ)) * (j + 1 : ℕ) = v := by
      field_simp
      ring
    exact congrArg real hhalf
  have hlast : j + 1 < 2 * j + 1 + 1 := by omega
  rw [← hpoint, ← hstep]
  change (linspace (real (v - d)) (real (v + d)) (2 * j + 1 + 2))[j + 1]? = _
  rw [linspace, List.getElem?_append_left (by simpa using hlast), List.getElem?_map,
    List.getElem?_range hlast]
  rfl

end Spacing

open Extended (real)

namespace Axis

theorem half_sum_make (v d : ℝ) (layout : Layout Extended) (log : Bool) :
    let made := make (real (v - d)) (real (v + d)) layout log
    0.5 * (made.lower + made.upper) = real v := by
  have hmiddle : (5 / 10 ^ 1 : ℝ) * (v - d + (v + d)) = v := by ring
  exact congrArg real hmiddle

theorem middle_value_make (v d : ℝ) {m : ℕ} (hm : 0 < m) :
    let made := make (real (v - d)) (real (v + d)) (.count (2 * m + 1)) false
    made.linearValues.length = 2 * m + 1 ∧ made.linearValues[m]? = some (real v) := by
  simp only [linearValues_make]
  exact ⟨Spacing.length_linspace _ _ _, Spacing.linspace_middle v d hm⟩

end Axis

/-- Widening by a factor of a range with both sides open, in real arithmetic with special values, on
any fit, with the parameters as the estimate leaves them: if the value of a parameter lies within
its limits and the estimate has offsets on their own sides of it, or none, or a `NaN`, then each
grid that is built has the value in the range of its axis for a factor of one or more, and the range
for a factor is part of the one for a greater factor. If the offsets are opposite and the limits
clip nothing, the value is the middle of the range, and on a linear axis with an odd count the
middle point. -/
theorem derived_range_surrounds {φ : Type} [Fit φ Extended] {n : ℕ} {fit after : φ}
    {estimate : ErrorEstimate Extended} (idx : Vector ℕ n) (layout : Vector (Layout Extended) n)
    (log : Vector Bool n)
    (hestimate : GridRequest.covarianceEstimate fit = (after, .ok estimate)) (a : Fin n) :
    let p := Fit.parameter after (idx.get a)
    let built (factor : ℝ) (made : Axis Extended) := ∃ grid : Grid Extended n,
      ((GridRequest.derived layout log (real factor)).build fit idx).2 = .ok grid ∧
        grid.axes.get a = made
    p.Admits p.value → estimate.Surrounds p.name →
      (∀ factor made, 1 ≤ factor → built factor made →
        made.lower ≤ p.value ∧ p.value ≤ made.upper) ∧
      (∀ less more inner outer, 0 < less → less ≤ more → built less inner → built more outer →
        outer.lower ≤ inner.lower ∧ inner.upper ≤ outer.upper) ∧
      ∀ k s, estimate.index? p.name = some k → Scalar.isNaN s = false →
        estimate.lower.getD k none = some (-s) → estimate.upper.getD k none = some s →
        ∀ factor made, 0 < factor → built factor made →
          p.lower ≤ (GridRequest.widen (real factor) (p.value + -s, p.value + s)).1 →
          (GridRequest.widen (real factor) (p.value + -s, p.value + s)).2 ≤ p.upper →
          0.5 * (made.lower + made.upper) = p.value ∧
            ∀ m, log.get a = false → layout.get a = .count (2 * m + 1) →
              made.linearValues.length = 2 * m + 1 ∧
                made.linearValues[m]? = some p.value := by
  intro p built hvalue hoffsets
  refine ⟨?_, ?_, ?_⟩
  · rintro factor _ hfactor ⟨grid, hgrid, rfl⟩
    obtain ⟨l, u, hends, hmade⟩ := GridRequest.exists_real_ends_of_build
      (one_pos.trans_le hfactor) hestimate hgrid a
    obtain ⟨v, hv, hl, hu⟩ := GridRequest.exists_value_between hvalue hoffsets (hends 1)
    obtain ⟨hlower, hupper⟩ := GridRequest.widen_encloses (r := (l, u)) hfactor hl hu
    rw [hmade]
    constructor
    · exact Scalar.larger_le (hv ▸ Extended.real_le_real.mpr hlower) hvalue.1
    · exact Scalar.le_smaller hvalue.2 fun _ => hv ▸ Extended.real_le_real.mpr hupper
  · rintro less more _ _ hless hle ⟨lessGrid, hinner, rfl⟩ ⟨moreGrid, houter, rfl⟩
    obtain ⟨l, u, hends, hmade⟩ := GridRequest.exists_real_ends_of_build hless hestimate hinner a
    obtain ⟨l', u', hends', hmade'⟩ := GridRequest.exists_real_ends_of_build
      (hless.trans_le hle) hestimate houter a
    obtain ⟨hl, hu⟩ := Prod.mk.inj (Option.some.inj ((hends 1).symm.trans (hends' 1)))
    obtain rfl := Extended.real.inj hl
    obtain rfl := Extended.real.inj hu
    have hreach := GridRequest.reach_mono (l, u) hle
    rw [hmade, hmade']
    constructor
    · exact Scalar.larger_le_larger _ (Extended.real_le_real.mpr (by linarith))
    · exact Scalar.smaller_le_smaller _ (Extended.real_le_real.mpr (by linarith))
  · rintro k s hk hs hbelow habove factor _ hfactor ⟨grid, hgrid, rfl⟩ hlower hupper
    obtain ⟨l, u, hends, hmade⟩ :=
      GridRequest.exists_real_ends_of_build hfactor hestimate hgrid a
    obtain ⟨hsum, hvalue⟩ := GridRequest.center_of_opposite hs hk hbelow habove (hends 1)
    rw [hsum, GridRequest.widen_real] at hlower hupper
    rw [Extended.larger_eq_left hlower, Extended.smaller_eq_left hupper] at hmade
    rw [hmade, hvalue]
    refine ⟨Axis.half_sum_make _ _ _ _, fun m hlog hlayout => ?_⟩
    have hcount := (GridRequest.build_eq_ok (Prod.ext rfl hgrid) a).1
    rw [GridRequest.derived, hlayout] at hcount
    obtain ⟨j, hj⟩ := exists_of_checkLayout hcount
    rw [hlog, hlayout]
    exact Axis.middle_value_make _ _ (by omega)

/-- A fit with an estimate that is quoted. -/
structure QuotedFit where
  parameters : List (Parameter Extended)
  estimate : ErrorEstimate Extended
  method : Optimizer := .nelderMead
  estimator : Estimator := .confidence

noncomputable instance : Fit QuotedFit Extended where
  modelName _ := "quoted"
  parameters := QuotedFit.parameters
  withParameters fit ps := { fit with parameters := ps }
  statistic _ := .chi2
  method := QuotedFit.method
  withMethod fit m := { fit with method := m }
  estimator := QuotedFit.estimator
  withEstimator fit e := { fit with estimator := e }
  calcStat _ := .ok 0
  minimise fit _ := (fit, .ok ⟨0, [], 0, fit.method⟩)
  estimateErrors fit := (fit, .ok fit.estimate)
  startup := id
  teardown := id

/-- One parameter is known to two to both sides. Of the other one nothing is known but its limits,
which are not as far from its value on one side as on the other. -/
noncomputable def quoted : QuotedFit where
  parameters := [⟨"known", real 5, real (-100), real 100, false⟩,
    ⟨"unknown", real 1, real 0, real 4, false⟩]
  estimate := ⟨.covariance, ["known", "unknown"], [real 5, real 1], [some (real (-2)), some .nan],
    [some (real 2), none]⟩

theorem surrounds_quoted (a : Fin 2) :
    let p := Fit.parameter quoted ((#v[0, 1] : Vector ℕ 2).get a)
    p.Admits p.value ∧ quoted.estimate.Surrounds p.name := by
  intro p
  fin_cases a
  · refine ⟨⟨Extended.real_le_real.mpr (by norm_num), Extended.real_le_real.mpr (by norm_num)⟩, ?_⟩
    intro k hk
    obtain rfl : 0 = k := Option.some.inj hk
    constructor
    · rintro b hb
      obtain rfl : real (-2) = b := Option.some.inj hb
      rw [Extended.zero_eq, Extended.real_le_real]
      exact .inr (by norm_num)
    · rintro b hb
      obtain rfl : real 2 = b := Option.some.inj hb
      rw [Extended.zero_eq, Extended.real_le_real]
      exact .inr (by norm_num)
  · refine ⟨⟨Extended.real_le_real.mpr (by norm_num), Extended.real_le_real.mpr (by norm_num)⟩, ?_⟩
    intro k hk
    obtain rfl : 1 = k := Option.some.inj hk
    constructor
    · rintro b hb
      obtain rfl : Extended.nan = b := Option.some.inj hb
      exact .inl rfl
    · rintro b hb
      cases hb

/-- Five points of the parameter that is known and three of the other one. -/
def aroundQuoted (factor : ℝ) : GridRequest Extended 2 :=
  .derived #v[.count 5, .count 3] (.replicate 2 false) (real factor)

/-- Around the quoted values the ranges are `5 ∓ 2 · factor` and, before they are clipped to
`[0, 4]`, `2 ∓ 2 · factor`. -/
theorem ranges_aroundQuoted {factor : ℝ} (hfactor : 0 < factor) :
    GridRequest.ranges quoted #v[0, 1] (aroundQuoted factor) =
      (quoted, .ok #v[(real (5 - 2 * factor), real (5 + 2 * factor)),
        (real (2 - 2 * factor), real (2 + 2 * factor))]) := by
  have hends : ∀ b : Fin 2, (aroundQuoted factor).ends quoted.estimate
      (Fit.parameter quoted ((#v[0, 1] : Vector ℕ 2).get b)) b =
        some ((#v[(real 3, real 7), (real 0, real 4)] : Vector _ 2).get b) := by
    have hlower : (5 + -2 : ℝ) = 3 := by norm_num
    have hupper : (5 + 2 : ℝ) = 7 := by norm_num
    rw [← hlower, ← hupper]
    intro b
    fin_cases b <;> rfl
  have hpositive : GridRequest.positiveFinite (aroundQuoted factor).factor = true := by
    rw [GridRequest.positiveFinite, Bool.and_eq_true, decide_eq_true_eq, Extended.zero_eq]
    exact ⟨rfl, Extended.real_lt_real.mpr hfactor⟩
  have hknown : GridRequest.widen (real factor) (real 3, real 7) =
      (real (5 - 2 * factor), real (5 + 2 * factor)) := by
    rw [GridRequest.widen_real, GridRequest.center, GridRequest.reach]
    norm_num [mul_comm]
  have hunknown : GridRequest.widen (real factor) (real 0, real 4) =
      (real (2 - 2 * factor), real (2 + 2 * factor)) := by
    rw [GridRequest.widen_real, GridRequest.center, GridRequest.reach]
    norm_num [mul_comm]
  have hmap : (#v[(real 3, real 7), (real 0, real 4)] : Vector (GridRequest.Range Extended) 2).map
      (GridRequest.widen (real factor)) = #v[(real (5 - 2 * factor), real (5 + 2 * factor)),
        (real (2 - 2 * factor), real (2 + 2 * factor))] := by
    simp [hknown, hunknown]
  rw [GridRequest.ranges_of_open (.inl rfl), if_pos hpositive, ← hmap]
  exact congrArg (Prod.mk quoted) (GridRequest.derivedRanges_eq_ok hends)

theorem exists_grid_aroundQuoted {factor : ℝ} (hleast : 1 ≤ factor) (hmost : factor ≤ 40) :
    ∃ grid, ((aroundQuoted factor).build quoted #v[0, 1]).2 = .ok grid := by
  obtain ⟨axes, haxes⟩ : ∃ axes, (aroundQuoted factor).axes quoted #v[0, 1]
      #v[(real (5 - 2 * factor), real (5 + 2 * factor)),
        (real (2 - 2 * factor), real (2 + 2 * factor))] = .ok axes := by
    apply GridRequest.exists_axes
    rw [Fin.forall_fin_two]
    constructor
    · have hclipped : Scalar.larger (real (5 - 2 * factor)) (real (-100)) <
          Scalar.smaller (real (5 + 2 * factor)) (real 100) := by
        rw [Extended.larger_real, Extended.smaller_real, Extended.real_lt_real,
          max_eq_left (by linarith), min_eq_left (by linarith)]
        linarith
      have hapart : real (5 - 2 * factor) < real (5 + 2 * factor) :=
        Extended.real_lt_real.mpr (by linarith)
      exact ⟨_, GridRequest.axis_of_checks hapart hclipped rfl rfl⟩
    · have hclipped : Scalar.larger (real (2 - 2 * factor)) (real 0) <
          Scalar.smaller (real (2 + 2 * factor)) (real 4) := by
        rw [Extended.larger_real, Extended.smaller_real, Extended.real_lt_real,
          max_eq_right (by linarith), min_eq_right (by linarith)]
        norm_num
      have hapart : real (2 - 2 * factor) < real (2 + 2 * factor) :=
        Extended.real_lt_real.mpr (by linarith)
      exact ⟨_, GridRequest.axis_of_checks hapart hclipped rfl rfl⟩
  refine ⟨⟨axes⟩, ?_⟩
  rw [GridRequest.build_of_ranges rfl (ranges_aroundQuoted (by linarith)), haxes]
  rfl

/-- A factor of two widens what a factor of one gives. The unknown value is nearer to one end; the
known one is the third of five points. -/
theorem quoted_surrounded :
    GridRequest.covarianceEstimate quoted = (quoted, .ok quoted.estimate) ∧
      (∀ a : Fin 2, let p := Fit.parameter quoted ((#v[0, 1] : Vector ℕ 2).get a)
        p.Admits p.value ∧ quoted.estimate.Surrounds p.name) ∧
      ∃ inner outer : Grid Extended 2,
        ((aroundQuoted 1).build quoted #v[0, 1]).2 = .ok inner ∧
        ((aroundQuoted 2).build quoted #v[0, 1]).2 = .ok outer ∧
        (inner.axes.get 1).lower ≤ real 1 ∧ real 1 ≤ (inner.axes.get 1).upper ∧
        (outer.axes.get 0).lower ≤ (inner.axes.get 0).lower ∧
        (inner.axes.get 0).upper ≤ (outer.axes.get 0).upper ∧
        0.5 * ((outer.axes.get 0).lower + (outer.axes.get 0).upper) = real 5 ∧
        (outer.axes.get 0).linearValues.length = 5 ∧
        (outer.axes.get 0).linearValues[2]? = some (real 5) := by
  have hestimate : GridRequest.covarianceEstimate quoted = (quoted, .ok quoted.estimate) := rfl
  obtain ⟨inner, hinner⟩ := exists_grid_aroundQuoted le_rfl (by norm_num)
  obtain ⟨outer, houter⟩ := exists_grid_aroundQuoted one_le_two (by norm_num)
  have haround := derived_range_surrounds #v[0, 1] #v[.count 5, .count 3] (.replicate 2 false)
    hestimate
  obtain ⟨hvalue, hoffsets⟩ := surrounds_quoted 1
  obtain ⟨hinside, -, -⟩ := haround 1 hvalue hoffsets
  obtain ⟨hlower, hupper⟩ := hinside 1 _ le_rfl ⟨inner, hinner, rfl⟩
  obtain ⟨hvalue, hoffsets⟩ := surrounds_quoted 0
  obtain ⟨-, hwider, hmiddle⟩ := haround 0 hvalue hoffsets
  obtain ⟨hdown, hup⟩ := hwider 1 2 _ _ one_pos one_le_two ⟨inner, hinner, rfl⟩
    ⟨outer, houter, rfl⟩
  have hwiden : GridRequest.widen (real 2) (real 5 + -real 2, real 5 + real 2) =
      (real 1, real 9) := by
    rw [Extended.neg_real, Extended.add_real, Extended.add_real, GridRequest.widen_real,
      GridRequest.center, GridRequest.reach]
    norm_num
  obtain ⟨hhalf, hpoint⟩ := hmiddle 0 (real 2) rfl rfl rfl rfl 2 _ two_pos ⟨outer, houter, rfl⟩
    (hwiden ▸ Extended.real_le_real.mpr (by norm_num))
    (hwiden ▸ Extended.real_le_real.mpr (by norm_num))
  obtain ⟨hlength, hthird⟩ := hpoint 2 rfl rfl
  exact ⟨hestimate, surrounds_quoted, inner, outer, hinner, houter, hlower, hupper, hdown, hup,
    hhalf, hlength, hthird⟩

end ParameterScan
