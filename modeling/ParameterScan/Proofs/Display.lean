import ParameterScan.Display
import ParameterScan.Proofs.Scan.History

/-!
# The error bars of the displays

The errors of data that can be made are positive, and so are those that chi-square takes from the
data. The residuals show them as they are, and `delchi` has bars of length one. The bars of the
ratio are the errors divided by the values of the curve, which keep their sign: below a curve that
is negative they are negative too. A zero of the curve is replaced by one, of either sign.
-/
namespace ParameterScan

namespace CurveFit

variable {α : Type} [Scalar α] {fit : CurveFit α} {errors : List α}

omit [Scalar α] in
theorem length_modelValues (fit : CurveFit α) :
    fit.modelValues.length = fit.data.x.length := by
  simp [modelValues, Model.values, Model.valuesAt]

/-- The errors of a display are those of the statistic, where it has any. -/
theorem effectiveErrors_of_pointErrors (h : fit.pointErrors = some errors) :
    fit.effectiveErrors = some errors := by
  unfold pointErrors at h
  split_ifs at h
  exact h

theorem pointErrors_shaped [Scalar.Monotone α] (hdata : fit.data.Shaped)
    (h : fit.pointErrors = some errors) :
    errors.length = fit.data.x.length ∧ ∀ e ∈ errors, 0 < e :=
  effectiveErrors_shaped hdata (effectiveErrors_of_pointErrors h)

end CurveFit

namespace Display

section Errors

variable {α : Type} [Scalar α] {fit : CurveFit α} {errors : List α}

/-- Without a statistic that has errors, those of the data are left. -/
theorem delchiErrors_eq (fit : CurveFit α) :
    delchiErrors fit = fit.effectiveErrors := by
  unfold delchiErrors CurveFit.effectiveErrors
  cases hgiven : fit.data.errors with
  | some given => rfl
  | none =>
      unfold CurveFit.pointErrors CurveFit.effectiveErrors
      rw [hgiven]
      split_ifs <;> rfl

theorem length_delchiErrors (hdata : fit.data.Shaped) (h : delchiErrors fit = some errors) :
    errors.length = fit.data.x.length :=
  CurveFit.length_effectiveErrors hdata (delchiErrors_eq fit ▸ h)

end Errors

/-- The bar of a ratio is on the side of zero on which the curve is. -/
def FollowsSign (m bar : Float) : Prop := (0 ≤ m → 0 ≤ bar) ∧ (m < 0 → bar ≤ 0)

theorem followsSign_divisor {e m : Float} (he : 0 < e) (hm : m.isFinite = true) :
    FollowsSign m (e / divisor m) := by
  have hnonneg : 0 ≤ e := Scalar.Ordered.le_of_lt he
  have hnan := Double.isNaN_of_isFinite hm
  unfold divisor
  split_ifs with hzero
  · refine ⟨fun _ => Double.div_nonneg_of_pos hnonneg rfl Double.one_pos, fun hneg => ?_⟩
    exact absurd hneg (Scalar.Ordered.not_lt_of_le (Double.beq_iff.mp hzero).2)
  · refine ⟨fun hle => ?_, fun hneg => Double.div_nonpos_of_neg hnonneg hm hneg⟩
    have hpos : 0 < m := by
      by_contra hlt
      exact hzero (Double.beq_iff.mpr ⟨Scalar.Ordered.le_of_not_lt rfl hnan hlt, hle⟩)
    exact Double.div_nonneg_of_pos hnonneg hm hpos

theorem followsSign_ratio {es ms : List Float} (hlength : es.length = ms.length)
    (hes : ∀ e ∈ es, 0 < e) (hms : ∀ m ∈ ms, m.isFinite = true) :
    List.Forall₂ FollowsSign ms (List.zipWith (fun e m => e / divisor m) es ms) := by
  induction es generalizing ms with
  | nil =>
      obtain rfl := List.length_eq_zero_iff.mp hlength.symm
      exact .nil
  | cons e es ih =>
      cases ms with
      | nil => cases hlength
      | cons m ms =>
          obtain ⟨he, hes⟩ := List.forall_mem_cons.mp hes
          obtain ⟨hm, hms⟩ := List.forall_mem_cons.mp hms
          exact .cons (followsSign_divisor he hm) (ih (Nat.succ.inj hlength) hes hms)

theorem nonneg_of_followsSign {ms bars : List Float} (h : List.Forall₂ FollowsSign ms bars)
    (hms : ∀ m ∈ ms, 0 ≤ m) : ∀ bar ∈ bars, 0 ≤ bar := by
  induction h with
  | nil => exact fun _ hbar => nomatch hbar
  | cons hbar _ ih =>
      obtain ⟨hm, hms⟩ := List.forall_mem_cons.mp hms
      exact List.forall_mem_cons.mpr ⟨hbar.1 hm, ih hms⟩

/-- Where a display has bars it has one for each point, and none is negative unless they are those
of a ratio to a curve with a negative value. The bars of a ratio are on the side of the curve. -/
theorem bars_nonneg_or_of_ratio {fit : CurveFit Float} (hdata : fit.data.Made)
    (hcurve : ∀ m ∈ fit.modelValues, m.isFinite = true) {kind : DisplayKind} {d : Display Float}
    (h : ofKind fit kind = .ok d) {bars : List Float} (hbars : d.errors = some bars) :
    bars.length = fit.data.x.length ∧
      (kind = .ratio → List.Forall₂ FollowsSign fit.modelValues bars) ∧
      ((kind = .ratio → ∀ m ∈ fit.modelValues, 0 ≤ m) → ∀ bar ∈ bars, 0 ≤ bar) := by
  have hshaped := hdata.shaped
  cases kind with
  | residual =>
      obtain rfl := Except.ok.inj h
      obtain ⟨hlength, hpos⟩ := CurveFit.pointErrors_shaped hshaped hbars
      exact ⟨hlength, nofun, fun _ bar hbar => Scalar.Ordered.le_of_lt (hpos bar hbar)⟩
  | ratio =>
      obtain rfl := Except.ok.inj h
      obtain ⟨es, hes, rfl⟩ := Option.map_eq_some_iff.mp hbars
      obtain ⟨hlength, hpos⟩ := CurveFit.pointErrors_shaped hshaped hes
      have hvalues := fit.length_modelValues
      have hsigns := followsSign_ratio (hlength.trans hvalues.symm) hpos hcurve
      exact ⟨hsigns.length_eq.symm.trans hvalues, fun _ => hsigns,
        fun hms => nonneg_of_followsSign hsigns (hms rfl)⟩
  | delchi =>
      unfold ofKind delchi at h
      cases hes : delchiErrors fit with
      | none =>
          rw [hes] at h
          cases h
      | some es =>
          rw [hes] at h
          obtain rfl := Except.ok.inj h
          obtain rfl := Option.some.inj hbars
          refine ⟨(List.length_map _).trans (length_delchiErrors hshaped hes), nofun, ?_⟩
          intro _ bar hbar
          obtain ⟨_, -, rfl⟩ := List.mem_map.mp hbar
          exact Scalar.Ordered.le_of_lt Double.one_pos
  | chisqr =>
      unfold ofKind chisqr at h
      cases hes : fit.pointErrors with
      | none =>
          rw [hes] at h
          cases h
      | some es =>
          rw [hes] at h
          obtain rfl := Except.ok.inj h
          cases hbars

/-- A point above a level that is negative. -/
def sunkenLevel : CurveFit Float where
  data := { name := "d", x := [0], y := [1], errors := some [1] }
  model :=
    { name := "const"
      parameters := [⟨"c0", -2, -4, 4, false⟩]
      curve := fun values _ => values.getD 0 0 }
  stat := .chi2
  config := { tolerance := 0 }

theorem made_sunkenLevel : sunkenLevel.data.Made := by
  let bare : Dataset Float := { name := "d", x := [0], y := [1] }
  have hmake : Dataset.make "d" [0] [1] = .ok bare := rfl
  have herrors : bare.withErrors [1] = .ok sunkenLevel.data := by decide +kernel
  exact .withErrors (.make hmake) herrors

/-- The residual of the point has its error for a bar; the bar of its ratio is below zero. -/
theorem sunkenLevel_bars :
    sunkenLevel.data.Made ∧ (∀ m ∈ sunkenLevel.modelValues, m.isFinite = true) ∧
      (∃ d, ofKind sunkenLevel .residual = .ok d ∧ d.errors = some [1] ∧
        ∀ bar ∈ ([1] : List Float), 0 ≤ bar) ∧
      ∃ d, ofKind sunkenLevel .ratio = .ok d ∧ d.errors = some [-0.5] ∧
        List.Forall₂ FollowsSign sunkenLevel.modelValues [-0.5] := by
  have hcurve : ∀ m ∈ sunkenLevel.modelValues, m.isFinite = true := by decide +kernel
  have hresidual : ofKind sunkenLevel .residual = .ok (residual sunkenLevel) := rfl
  have hlength : (residual sunkenLevel).errors = some [1] := rfl
  have hratio : ofKind sunkenLevel .ratio = .ok (ratio sunkenLevel) := rfl
  have hbelow : (ratio sunkenLevel).errors = some [-0.5] := by decide +kernel
  obtain ⟨-, -, hnonneg⟩ := bars_nonneg_or_of_ratio made_sunkenLevel hcurve hresidual hlength
  obtain ⟨-, hsigns, -⟩ := bars_nonneg_or_of_ratio made_sunkenLevel hcurve hratio hbelow
  exact ⟨made_sunkenLevel, hcurve, ⟨_, hresidual, hlength, hnonneg nofun⟩, _, hratio, hbelow,
    hsigns rfl⟩

/-- The point and its error are as they should be and the curve is finite, and yet its ratio has a
bar of negative length. -/
theorem sunkenLevel_negative_bar :
    sunkenLevel.data.Made ∧ (∀ m ∈ sunkenLevel.modelValues, m.isFinite = true) ∧
      ∃ d bars, ofKind sunkenLevel .ratio = .ok d ∧ d.errors = some bars ∧
        ∃ bar ∈ bars, ¬0 ≤ bar := by
  refine ⟨made_sunkenLevel, by decide +kernel, ratio sunkenLevel, [-0.5], rfl, by decide +kernel,
    -0.5, List.mem_singleton_self _, by decide +kernel⟩

end Display

end ParameterScan
