import ParameterScan.Proofs.Fit.Covariance
import ParameterScan.Proofs.Scan.AxisOrder

/-!
# Ranges with one side open

A request may give the bound of one side and leave the other one to an estimate. The range between
the two ends is re-centred and widened by the factor as a whole, the given side no less than the
derived one, and then clipped to the limits of the parameter. So a given bound is the end of its
axis if the factor is one, and otherwise only where both are clipped to the same limit.

The half width is a distance, so the widened range has its ends in order if they are apart at all.
The check that follows refuses a bound that is equal to the derived one, and does not tell on which
side of it a bound was given.
-/
namespace ParameterScan

open scoped Exact

section Traversal

variable {ε τ ρ : Type}

/-- The first failure is that of the whole. -/
theorem mapM_append_cons_eq_error {f : τ → Except ε ρ} {before after : List τ} {x : τ} {e : ε}
    (hbefore : ∀ y ∈ before, ∃ r, f y = .ok r) (h : f x = .error e) :
    (before ++ x :: after).mapM f = .error e := by
  induction before with
  | nil =>
      rw [List.nil_append, List.mapM_cons, h]
      rfl
  | cons y before ih =>
      obtain ⟨⟨r, hr⟩, hrest⟩ := List.forall_mem_cons.mp hbefore
      rw [List.cons_append, List.mapM_cons, hr, ih hrest]
      rfl

theorem mapM_finRange_eq_error {n : ℕ} {f : Fin n → Except ε ρ} {a : Fin n} {e : ε}
    (hbefore : ∀ b < a, ∃ r, f b = .ok r) (h : f a = .error e) :
    (Vector.finRange n).mapM f = .error e := by
  have hsplit : (Vector.finRange n).toList =
      (List.finRange n).take a ++ a :: (List.finRange n).drop (a + 1) := by
    have hlt : a.val < (List.finRange n).length := by simp
    have hdrop : (List.finRange n).drop a = a :: (List.finRange n).drop (a + 1) := by
      simpa using List.drop_eq_getElem_cons hlt
    rw [← hdrop, List.take_append_drop]
    exact List.ext_getElem (by simp) fun i _ _ => by simp
  have htake : ∀ b ∈ (List.finRange n).take a, ∃ r, f b = .ok r := by
    intro b hb
    obtain ⟨i, hi, rfl⟩ := List.mem_take_iff_getElem.mp hb
    apply hbefore
    rw [List.getElem_finRange, Fin.lt_def]
    exact (lt_min_iff.mp hi).1
  have hlist : (Vector.finRange n).toList.mapM f = .error e := by
    rw [hsplit]
    exact mapM_append_cons_eq_error htake h
  cases hmade : (Vector.finRange n).mapM f with
  | error d =>
      rw [toList_mapM_eq_error hmade] at hlist
      rw [Except.error.inj hlist]
  | ok v =>
      rw [toList_mapM_eq_ok hmade] at hlist
      cases hlist

end Traversal

namespace GridRequest

section Stages

variable {φ α : Type} [Scalar α] [Fit φ α] {n : ℕ} {fit after : φ} {idx : Vector ℕ n}
  {req : GridRequest α n} {estimate : ErrorEstimate α}

/-- The end of a range on one side: what is given, or else the value with its offset, or the limit
where there is none. -/
def sideEnd (given offset : Option α) (value limit : α) : α :=
  given.getD (((usable offset).map (value + ·)).getD limit)

/-- The ends of the range of an axis before they are widened, if the estimate has an entry for its
parameter. -/
def ends (req : GridRequest α n) (estimate : ErrorEstimate α) (p : Parameter α) (a : Fin n) :
    Option (Range α) :=
  (estimate.index? p.name).map fun k =>
    (sideEnd (req.lower.map (·.get a)) (estimate.lower.getD k none) p.value p.lower,
      sideEnd (req.upper.map (·.get a)) (estimate.upper.getD k none) p.value p.upper)

theorem derivedRange_eq (p : Parameter α) (a : Fin n) :
    derivedRange req.factor estimate p (req.lower.map (·.get a)) (req.upper.map (·.get a)) =
      match req.ends estimate p a with
      | none => .error (.missingEstimate p.name)
      | some r => .ok (widen req.factor r) := by
  unfold derivedRange ends sideEnd
  cases estimate.index? p.name with
  | none => rfl
  | some k => cases req.lower <;> cases req.upper <;> rfl

theorem derivedRange_eq_ok_iff {p : Parameter α} {a : Fin n} {w : Range α} :
    derivedRange req.factor estimate p (req.lower.map (·.get a)) (req.upper.map (·.get a)) =
      .ok w ↔ ∃ r, req.ends estimate p a = some r ∧ w = widen req.factor r := by
  rw [derivedRange_eq]
  cases req.ends estimate p a with
  | none => simp
  | some r => simp [eq_comm]

/-- Without both sides given, the ranges are derived if the factor will do. -/
theorem ranges_of_open (hopen : req.lower = none ∨ req.upper = none) :
    ranges fit idx req =
      if positiveFinite req.factor then
        match covarianceEstimate fit with
        | (fit, .error e) => (fit, .error (.fit e))
        | (fit, .ok estimate) => (fit, req.derivedRanges fit idx estimate)
      else (fit, .error (.invalidFactor req.factor)) := by
  obtain ⟨lower, upper, _⟩ := req
  rcases hopen with h | h
  · obtain rfl : lower = none := h
    rfl
  · obtain rfl : upper = none := h
    cases lower <;> rfl

theorem derivedRanges_eq_ok {rs : Vector (Range α) n}
    (h : ∀ a, req.ends estimate (Fit.parameter after (idx.get a)) a = some (rs.get a)) :
    req.derivedRanges after idx estimate = .ok (rs.map (widen req.factor)) := by
  refine vector_mapM_eq_ok_iff.mpr (List.ext_getElem (by simp) fun i hi _ => ?_)
  have hin : i < n := by simpa using hi
  have hrange := derivedRange_eq_ok_iff.mpr ⟨_, h ⟨i, hin⟩, rfl⟩
  have hget : rs.get ⟨i, hin⟩ = rs[i] := rfl
  rw [hget] at hrange
  simpa using hrange

theorem exists_axes {rs : Vector (Range α) n}
    (h : ∀ a : Fin n, ∃ made, axis a.val (Fit.parameter fit (idx.get a)) (rs.get a)
      (req.layout.get a) (req.log.get a) = .ok made) :
    ∃ axes, req.axes fit idx rs = .ok axes := by
  choose made hmade using h
  refine ⟨Vector.ofFn made, vector_mapM_eq_ok_iff.mpr (List.ext_getElem (by simp) ?_)⟩
  intro i _ _
  simp [hmade]

theorem build_of_ranges {rs : Vector (Range α) n} (hlayouts : req.checkLayouts = .ok ())
    (hranges : ranges fit idx req = (after, .ok rs)) :
    build fit idx req = (after, (req.axes after idx rs).map Grid.mk) := by
  simp only [build, hlayouts, hranges]

/-- Without both sides given, the axes of a grid that is built are made of widened ends. -/
theorem exists_ends_of_build {grid : Grid α n} (hopen : req.lower = none ∨ req.upper = none)
    (h : build fit idx req = (after, .ok grid)) :
    ∃ estimate, covarianceEstimate fit = (after, .ok estimate) ∧ ∀ a : Fin n,
      ∃ r, req.ends estimate (Fit.parameter after (idx.get a)) a = some r ∧
        axis a.val (Fit.parameter after (idx.get a)) (widen req.factor r) (req.layout.get a)
          (req.log.get a) = .ok (grid.axes.get a) := by
  obtain ⟨-, rs, hranges, haxes⟩ := exists_ranges_of_build h
  rw [ranges_of_open hopen] at hranges
  split_ifs at hranges with hfactor
  · cases hestimate : covarianceEstimate fit with
    | mk other outcome =>
        rw [hestimate] at hranges
        cases outcome with
        | error e => cases hranges
        | ok estimate =>
            obtain ⟨rfl, hderived⟩ := Prod.mk.inj hranges
            refine ⟨estimate, rfl, fun a => ?_⟩
            have hrange := getElem_of_mapM_finRange hderived a
            obtain ⟨r, hends, hwiden⟩ := derivedRange_eq_ok_iff.mp hrange
            exact ⟨r, hends, hwiden ▸ haxes a⟩
  · cases hranges

/-- A side that is given is the end of its range. -/
theorem given_of_ends {p : Parameter α} {a : Fin n} {r : Range α}
    (h : req.ends estimate p a = some r) :
    (∀ lower, req.lower = some lower → r.1 = lower.get a) ∧
      ∀ upper, req.upper = some upper → r.2 = upper.get a := by
  obtain ⟨k, -, rfl⟩ := Option.map_eq_some_iff.mp h
  constructor
  · intro lower hlower
    simp [sideEnd, hlower]
  · intro upper hupper
    simp [sideEnd, hupper]

end Stages

/-- The middle of a range. -/
noncomputable def center (r : Range ℝ) : ℝ := (r.1 + r.2) / 2

/-- How far a widened range goes to both sides of its middle. -/
noncomputable def reach (factor : ℝ) (r : Range ℝ) : ℝ := factor * (|r.2 - r.1| / 2)

theorem widen_eq (factor : ℝ) (r : Range ℝ) :
    widen factor r = (center r - reach factor r, center r + reach factor r) := by
  have hmiddle : (5 : ℕ) / 10 ^ 1 * (r.2 + r.1) = center r := by
    rw [center]
    push_cast
    ring
  have hhalf : |center r - r.1| = |r.2 - r.1| / 2 := by
    have hsub : center r - r.1 = (r.2 - r.1) / 2 := by
      rw [center]
      ring
    rw [hsub, abs_div, abs_two]
  simp only [widen, Scalar.real_decimal, Scalar.real_abs, hmiddle, hhalf, reach]

theorem reach_of_le {r : Range ℝ} (h : r.1 ≤ r.2) (factor : ℝ) :
    center r - reach factor r = r.1 - (factor - 1) * ((r.2 - r.1) / 2) ∧
      center r + reach factor r = r.2 + (factor - 1) * ((r.2 - r.1) / 2) := by
  rw [center, reach, abs_of_nonneg (sub_nonneg.mpr h)]
  constructor <;> ring

theorem widen_of_eq {r : Range ℝ} (h : r.1 = r.2) (factor : ℝ) : widen factor r = r := by
  obtain ⟨hlower, hupper⟩ := reach_of_le h.le factor
  rw [widen_eq, hlower, hupper, h, sub_self, zero_div, mul_zero, sub_zero, add_zero]
  exact Prod.ext h.symm rfl

theorem max_eq_max_iff {τ : Type} [LinearOrder τ] {x y limit : τ} :
    max x limit = max y limit ↔ x = y ∨ y ≤ limit ∧ x ≤ limit := by
  constructor
  · intro h
    rcases le_or_gt x limit with hx | hx
    · have hy : y ≤ limit := by
        rw [max_eq_right hx] at h
        exact h ▸ le_max_left y limit
      exact .inr ⟨hy, hx⟩
    · rw [max_eq_left hx.le] at h
      rcases max_choice y limit with hy | hy
      · exact .inl (h.trans hy)
      · exact absurd (h.trans hy) hx.ne'
  · rintro (rfl | ⟨hy, hx⟩)
    · rfl
    · rw [max_eq_right hx, max_eq_right hy]

section Kept

variable {r : Range ℝ} {factor limit : ℝ}

/-- An end stays where it is by a factor of one. -/
theorem kept_iff (h : r.1 < r.2) :
    (center r - reach factor r = r.1 ↔ factor = 1) ∧
      (center r + reach factor r = r.2 ↔ factor = 1) := by
  obtain ⟨hlower, hupper⟩ := reach_of_le h.le factor
  have hhalf : (r.2 - r.1) / 2 ≠ 0 := (half_pos (sub_pos.mpr h)).ne'
  constructor
  · rw [hlower, sub_eq_self, mul_eq_zero, or_iff_left hhalf, sub_eq_zero]
  · rw [hupper, add_eq_left, mul_eq_zero, or_iff_left hhalf, sub_eq_zero]

/-- The lower end is kept by a factor of one, or behind the limit. -/
theorem lower_kept_iff (h : r.1 < r.2) :
    max (center r - reach factor r) limit = max r.1 limit ↔
      factor = 1 ∨ r.1 ≤ limit ∧ center r - reach factor r ≤ limit := by
  rw [max_eq_max_iff, (kept_iff h).1]

theorem upper_kept_iff (h : r.1 < r.2) :
    min (center r + reach factor r) limit = min r.2 limit ↔
      factor = 1 ∨ limit ≤ r.2 ∧ limit ≤ center r + reach factor r := by
  rw [← (kept_iff h).2]
  exact @max_eq_max_iff ℝᵒᵈ _ _ _ _

end Kept

section Open

variable {φ : Type} [Fit φ ℝ] {n : ℕ} {fit after : φ} {idx : Vector ℕ n} {req : GridRequest ℝ n}

/-- The range that an accepted axis was widened from, and what its ends were. -/
theorem apart_of_axis {a : ℕ} {p : Parameter ℝ} {r : Range ℝ} {layout : Layout ℝ} {log : Bool}
    {made : Axis ℝ} (h : axis a p (widen req.factor r) layout log = .ok made) :
    r.1 ≠ r.2 ∧ made.lower = max (center r - reach req.factor r) p.lower ∧
      made.upper = min (center r + reach req.factor r) p.upper := by
  obtain ⟨_, hrange, -⟩ := exists_of_bind_eq_ok h
  have hlt := lt_of_checkRange hrange
  obtain ⟨-, rfl⟩ := axis_eq_ok h
  refine ⟨fun heq => ?_, ?_, ?_⟩
  · rw [widen_of_eq heq] at hlt
    exact absurd heq hlt.ne
  · rw [widen_eq]
    exact Scalar.real_larger _ _
  · rw [widen_eq]
    exact Scalar.real_smaller _ _

/-- Where the ends meet at an axis, the grid is refused, if it is not refused for an axis before. -/
theorem build_of_meeting {estimate : ErrorEstimate ℝ} {rs : Vector (Range ℝ) n} {a : Fin n}
    (hopen : req.lower = none ∨ req.upper = none) (hfactor : 0 < req.factor)
    (hlayouts : req.checkLayouts = .ok ())
    (hestimate : covarianceEstimate fit = (after, .ok estimate))
    (hends : ∀ b, req.ends estimate (Fit.parameter after (idx.get b)) b = some (rs.get b))
    (hbefore : ∀ b < a, ∃ made, axis b.val (Fit.parameter after (idx.get b))
      (widen req.factor (rs.get b)) (req.layout.get b) (req.log.get b) = .ok made)
    (hmeet : (rs.get a).1 = (rs.get a).2) :
    build fit idx req = (after, .error (.invalidBounds a (rs.get a).1 (rs.get a).2)) := by
  have hpositive : positiveFinite req.factor = true := by
    simpa [positiveFinite] using hfactor
  have hranges : ranges fit idx req = (after, .ok (rs.map (widen req.factor))) := by
    rw [ranges_of_open hopen, if_pos hpositive, hestimate]
    exact congrArg (Prod.mk after) (derivedRanges_eq_ok hends)
  have hget : ∀ b : Fin n, (rs.map (widen req.factor)).get b = widen req.factor (rs.get b) := by
    intro b
    simp [Vector.get]
  have haxis : axis a.val (Fit.parameter after (idx.get a)) (widen req.factor (rs.get a))
      (req.layout.get a) (req.log.get a) =
        .error (.invalidBounds a (rs.get a).1 (rs.get a).2) := by
    rw [widen_of_eq hmeet]
    unfold axis checkRange
    rw [if_neg hmeet.not_lt]
    rfl
  have haxes : req.axes after idx (rs.map (widen req.factor)) =
      .error (.invalidBounds a (rs.get a).1 (rs.get a).2) := by
    apply mapM_finRange_eq_error
    · intro b hb
      rw [hget]
      exact hbefore b hb
    · rw [hget]
      exact haxis
  rw [build_of_ranges hlayouts hranges, haxes]
  rfl

end Open

end GridRequest

/-- In exact arithmetic, for a request without both sides given, on any fit: each axis of a grid
that is built comes from the range between the given bound and the estimated one. Where the lower
end is below the upper one, the axis is that range, re-centred, widened by the factor on each side
and clipped. So each end is the end of the axis for a factor of one, and for another one only if
what it was and what it became are behind the limit. Ends that meet are refused as bounds out of
order. -/
theorem build_with_open_side {φ : Type} [Fit φ ℝ] {n : ℕ} {fit : φ} {idx : Vector ℕ n}
    {req : GridRequest ℝ n} (hopen : req.lower = none ∨ req.upper = none) :
    (∀ after grid, req.build fit idx = (after, .ok grid) →
      ∃ estimate, GridRequest.covarianceEstimate fit = (after, .ok estimate) ∧ ∀ a : Fin n,
        let p := Fit.parameter after (idx.get a)
        let made := grid.axes.get a
        ∃ r, req.ends estimate p a = some r ∧
          (∀ lower, req.lower = some lower → r.1 = lower.get a) ∧
          (∀ upper, req.upper = some upper → r.2 = upper.get a) ∧ r.1 ≠ r.2 ∧
          (r.1 < r.2 →
            made.lower = max (GridRequest.center r - GridRequest.reach req.factor r) p.lower ∧
            made.upper = min (GridRequest.center r + GridRequest.reach req.factor r) p.upper ∧
            (made.lower = max r.1 p.lower ↔ req.factor = 1 ∨ r.1 ≤ p.lower ∧
              GridRequest.center r - GridRequest.reach req.factor r ≤ p.lower) ∧
            (made.upper = min r.2 p.upper ↔ req.factor = 1 ∨ p.upper ≤ r.2 ∧
              p.upper ≤ GridRequest.center r + GridRequest.reach req.factor r))) ∧
    ∀ (after : φ) (estimate : ErrorEstimate ℝ) (rs : Vector (GridRequest.Range ℝ) n) (a : Fin n),
      0 < req.factor → req.checkLayouts = .ok () →
      GridRequest.covarianceEstimate fit = (after, .ok estimate) →
      (∀ b, req.ends estimate (Fit.parameter after (idx.get b)) b = some (rs.get b)) →
      (∀ b < a, ∃ made, GridRequest.axis b.val (Fit.parameter after (idx.get b))
        (GridRequest.widen req.factor (rs.get b)) (req.layout.get b) (req.log.get b) = .ok made) →
      (rs.get a).1 = (rs.get a).2 →
      req.build fit idx = (after, .error (.invalidBounds a (rs.get a).1 (rs.get a).2)) := by
  constructor
  · intro after grid hbuild
    obtain ⟨estimate, hestimate, haxes⟩ := GridRequest.exists_ends_of_build hopen hbuild
    refine ⟨estimate, hestimate, fun a => ?_⟩
    obtain ⟨r, hends, haxis⟩ := haxes a
    obtain ⟨hlower, hupper⟩ := GridRequest.given_of_ends hends
    obtain ⟨hapart, hmin, hmax⟩ := GridRequest.apart_of_axis haxis
    refine ⟨r, hends, hlower, hupper, hapart, fun hlt => ⟨hmin, hmax, ?_⟩⟩
    rw [hmin, hmax]
    exact ⟨GridRequest.lower_kept_iff hlt, GridRequest.upper_kept_iff hlt⟩
  · intro after estimate rs a hfactor hlayouts hestimate hends hbefore hmeet
    exact GridRequest.build_of_meeting hopen hfactor hlayouts hestimate hends hbefore hmeet

/-- A level put through one point with an error of two. -/
noncomputable def measuredPoint : CurveFit ℝ where
  data := { name := "point", x := [0], y := [5], errors := some [2] }
  model :=
    { name := "const"
      parameters := [⟨"c0", 5, -100, 100, false⟩]
      curve := fun values _ => values.getD 0 0 }
  stat := .chi2
  config := { tolerance := 0 }

/-- Four points from a given bound up. -/
def fromBound (lower factor : ℝ) : GridRequest ℝ 1 where
  lower := some #v[lower]
  upper := none
  layout := #v[.count 4]
  factor := factor
  log := .replicate 1 false

theorem measuredPoint_affine : measuredPoint.Affine (fun _ => 0) (fun _ _ => 1) := by
  intro x _ values hvalues
  obtain ⟨a, rfl⟩ := List.length_eq_one_iff.mp hvalues
  simp [measuredPoint]

theorem measuredPoint_information :
    (information (fun _ _ => 1) (measuredPoint.data.observations [2])
      (Parameters.thawedIndices measuredPoint.parameters) : Matrix (Fin 1) (Fin 1) ℝ) =
        !![1 / 4] := by
  have hpoints : measuredPoint.data.observations [2] = [⟨0, 5, 2⟩] := rfl
  rw [hpoints]
  ext i j
  refine (information_apply _ _ _ i j).trans ?_
  fin_cases i
  fin_cases j
  simp
  norm_num
  rfl

/-- The level is known to two to both sides. -/
theorem covarianceEstimate_measuredPoint :
    GridRequest.covarianceEstimate measuredPoint =
      (measuredPoint, .ok ⟨.covariance, ["c0"], [5], [some (-2)], [some 2]⟩) := by
  have hmul : (!![1 / 4] : Matrix (Fin 1) (Fin 1) ℝ) * !![4] = 1 := by
    ext i j
    fin_cases i
    fin_cases j
    simp
  have hroots : ∀ M : Matrix (Fin 1) (Fin 1) ℝ,
      information (fun _ _ => 1) (measuredPoint.data.observations [2])
        (Parameters.thawedIndices measuredPoint.parameters) = M → IsUnit M →
      CurveFit.inverseRoots (information (fun _ _ => 1) (measuredPoint.data.observations [2])
        (Parameters.thawedIndices measuredPoint.parameters)) =
          .ofFn fun i : Fin 1 => some √(M⁻¹ i i) := by
    rintro _ rfl hunit
    exact CurveFit.inverseRoots_of_isUnit hunit
  have herrors : measuredPoint.covarianceErrors = _ :=
    CurveFit.covarianceErrorsWith_eq Linear.exact_inverseOne? rfl rfl measuredPoint_affine
      Nat.one_pos
  rw [hroots _ measuredPoint_information (IsUnit.of_mul_eq_one _ hmul),
    Matrix.inv_eq_right_inv hmul] at herrors
  have hroot : √(4 : ℝ) = 2 := by
    rw [Real.sqrt_eq_iff_mul_self_eq_of_pos two_pos]
    norm_num
  have hsigma : (List.ofFn fun i : Fin 1 => some √((!![4] : Matrix (Fin 1) (Fin 1) ℝ) i i)) =
      [some 2] := by
    simp [hroot]
  rw [hsigma] at herrors
  rw [GridRequest.covarianceEstimate_eq, herrors]
  rfl

theorem ends_fromBound (lower factor : ℝ) (a : Fin 1) :
    (fromBound lower factor).ends ⟨.covariance, ["c0"], [5], [some (-2)], [some 2]⟩
      (Fit.parameter measuredPoint 0) a = some (lower, 7) := by
  obtain rfl : a = 0 := Subsingleton.elim a 0
  have hupper : (5 + 2 : ℝ) = 7 := by norm_num
  rw [← hupper]
  rfl

/-- A range inside the limits is not clipped. -/
theorem GridRequest.axis_of_inside {a : ℕ} {p : Parameter ℝ} {r : Range ℝ} {layout : Layout ℝ}
    {log : Bool} (hlower : p.lower ≤ r.1) (hlt : r.1 < r.2) (hupper : r.2 ≤ p.upper)
    (hsteps : checkSteps a r layout = .ok ()) (hlog : checkLog a r log = .ok ()) :
    axis a p r layout log = .ok (Axis.make r.1 r.2 layout log) := by
  have hlower : Scalar.larger r.1 p.lower = r.1 :=
    (Scalar.real_larger _ _).trans (max_eq_left hlower)
  have hupper : Scalar.smaller r.2 p.upper = r.2 :=
    (Scalar.real_smaller _ _).trans (min_eq_left hupper)
  have haxis : axis a p r layout log = .ok _ :=
    axis_of_checks hlt (by rwa [hlower, hupper]) (by rwa [hlower, hupper])
      (by rwa [hlower, hupper])
  rwa [hlower, hupper] at haxis

/-- What is built from a bound, if it stays inside the limits. -/
theorem build_fromBound {lower factor : ℝ} {r : GridRequest.Range ℝ} (hfactor : 0 < factor)
    (hwiden : GridRequest.widen factor (lower, 7) = r) (hlower : -100 ≤ r.1) (hlt : r.1 < r.2)
    (hupper : r.2 ≤ 100) :
    (fromBound lower factor).build measuredPoint #v[0] =
      (measuredPoint, .ok ⟨#v[Axis.make r.1 r.2 (.count 4) false]⟩) := by
  have hranges : GridRequest.ranges measuredPoint #v[0] (fromBound lower factor) =
      (measuredPoint, .ok #v[r]) := by
    have hpositive : GridRequest.positiveFinite (fromBound lower factor).factor = true := by
      simpa [GridRequest.positiveFinite, fromBound] using hfactor
    have hends : ∀ a, (fromBound lower factor).ends
        ⟨.covariance, ["c0"], [5], [some (-2)], [some 2]⟩
          (Fit.parameter measuredPoint ((#v[0] : Vector ℕ 1).get a)) a =
            some ((#v[(lower, 7)] : Vector (GridRequest.Range ℝ) 1).get a) := by
      intro a
      obtain rfl : a = 0 := Subsingleton.elim a 0
      exact ends_fromBound lower factor 0
    have hmap : (#v[(lower, 7)] : Vector (GridRequest.Range ℝ) 1).map
        (GridRequest.widen factor) = #v[r] := by
      simp [hwiden]
    rw [GridRequest.ranges_of_open (.inr rfl), if_pos hpositive, covarianceEstimate_measuredPoint,
      ← hmap]
    exact congrArg (Prod.mk measuredPoint) (GridRequest.derivedRanges_eq_ok hends)
  have haxes : (fromBound lower factor).axes measuredPoint #v[0] #v[r] =
      .ok #v[Axis.make r.1 r.2 (.count 4) false] := by
    refine vector_mapM_eq_ok_iff.mpr ?_
    exact congrArg (· :: []) (GridRequest.axis_of_inside hlower hlt hupper rfl rfl)
  rw [GridRequest.build_of_ranges rfl hranges, haxes]
  rfl

/-- From a given four the axis goes to the derived seven, from a given seven nowhere. -/
theorem measuredPoint_keeps_bound :
    (∃ grid : Grid ℝ 1, (fromBound 4 1).build measuredPoint #v[0] = (measuredPoint, .ok grid) ∧
      (grid.axes.get 0).lower = 4 ∧ (grid.axes.get 0).upper = 7) ∧
    (fromBound 7 2).build measuredPoint #v[0] = (measuredPoint, .error (.invalidBounds 0 7 7)) := by
  constructor
  · have hwiden : GridRequest.widen 1 ((4, 7) : GridRequest.Range ℝ) = (4, 7) := by
      rw [GridRequest.widen_eq, GridRequest.center, GridRequest.reach]
      norm_num
    have hbuild := build_fromBound one_pos hwiden (by norm_num) (by norm_num) (by norm_num)
    refine ⟨_, hbuild, ?_⟩
    obtain ⟨estimate, hestimate, haxes⟩ := (build_with_open_side (.inr rfl)).1 _ _ hbuild
    obtain rfl : _ = estimate := by
      simpa [covarianceEstimate_measuredPoint] using hestimate
    obtain ⟨r, hends, -, -, -, hkept⟩ := haxes 0
    obtain rfl := Option.some.inj (hends.symm.trans (ends_fromBound 4 1 0))
    obtain ⟨-, -, hlower, hupper⟩ := hkept (by norm_num)
    rw [hlower.mpr (.inl rfl), hupper.mpr (.inl rfl)]
    have hleast : (-100 : ℝ) ≤ 4 := by norm_num
    have hmost : (7 : ℝ) ≤ 100 := by norm_num
    exact ⟨max_eq_left hleast, min_eq_left hmost⟩
  · apply (build_with_open_side (.inr rfl)).2 measuredPoint _ #v[(7, 7)] 0 two_pos rfl
      covarianceEstimate_measuredPoint
    · intro b
      obtain rfl : b = 0 := Subsingleton.elim b 0
      exact ends_fromBound 7 2 0
    · exact fun b hb => absurd hb (Fin.not_lt_zero b)
    · rfl

/-- A given four is widened to five halves by a factor of two, and a given nine, which is above the
derived seven, becomes the upper end. -/
theorem measuredPoint_moves_bound :
    (∃ grid : Grid ℝ 1, (fromBound 4 2).build measuredPoint #v[0] = (measuredPoint, .ok grid) ∧
      (grid.axes.get 0).lower = 5 / 2 ∧ (grid.axes.get 0).upper = 17 / 2) ∧
    (∃ grid : Grid ℝ 1, (fromBound 9 1).build measuredPoint #v[0] = (measuredPoint, .ok grid) ∧
      (grid.axes.get 0).lower = 7 ∧ (grid.axes.get 0).upper = 9) ∧
    ¬∀ (lower factor : ℝ) (grid : Grid ℝ 1), 0 < factor →
      (fromBound lower factor).build measuredPoint #v[0] = (measuredPoint, .ok grid) →
        (grid.axes.get 0).lower = max lower (-100) := by
  have hwiden : GridRequest.widen 2 ((4, 7) : GridRequest.Range ℝ) = (5 / 2, 17 / 2) := by
    rw [GridRequest.widen_eq, GridRequest.center, GridRequest.reach]
    norm_num
  have hmoved := build_fromBound two_pos hwiden (by norm_num) (by norm_num) (by norm_num)
  have hwiden : GridRequest.widen 1 ((9, 7) : GridRequest.Range ℝ) = (7, 9) := by
    rw [GridRequest.widen_eq, GridRequest.center, GridRequest.reach]
    norm_num
  have hturned := build_fromBound one_pos hwiden (by norm_num) (by norm_num) (by norm_num)
  refine ⟨⟨_, hmoved, rfl, rfl⟩, ⟨_, hturned, rfl, rfl⟩, fun hall => ?_⟩
  have hkept : (5 / 2 : ℝ) = max 4 (-100) := hall 4 2 _ two_pos hmoved
  rw [max_eq_left (by norm_num)] at hkept
  norm_num at hkept

end ParameterScan
