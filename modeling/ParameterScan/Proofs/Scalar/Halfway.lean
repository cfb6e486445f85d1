import ParameterScan.Proofs.Minimize.Box
import ParameterScan.Proofs.Scalar.Monotone

/-!
# Half way between two doubles

Half way from one double to another is computed as the first plus half of the difference, and each
of the three operations rounds. The result lies between the two all the same. The difference of two
doubles is a multiple of the least positive one: a small difference has no more bits than a double
and is exact, and halving a large one leaves more room than two roundings take up. So a range is
closed under going half way when its width does not overflow.
-/
namespace ParameterScan.Double

variable {x y l u : Float} {d v w q : ℚ}

theorem SignedRounds.neg (h : SignedRounds q v) : SignedRounds (-q) (-v) := by
  rcases h with ⟨hq, h⟩ | ⟨hq, h⟩
  · exact .inr ⟨by linarith, by simpa using h⟩
  · exact .inl ⟨by linarith, h⟩

theorem SignedRounds.rounds (h : SignedRounds q v) (hq : 0 ≤ q) : Rounds q v := by
  rcases h with ⟨-, h⟩ | ⟨hq', h⟩
  · exact h
  · obtain rfl : q = 0 := le_antisymm hq' hq
    rw [neg_zero] at h
    obtain rfl : v = 0 := neg_eq_zero.mp h.eq_zero
    exact rounds_zero

/-- A distance that is a multiple of the least positive double is not exceeded by its half. -/
theorem Rounds.half_le {k : ℕ} (hd : d = k * 2 ^ (-1074 : ℤ)) (hw : Rounds d w)
    (hv : Rounds (w / 2) v) : v ≤ d := by
  rcases lt_or_ge k (2 ^ 53) with hk | hk
  · have hself : Rounds d d := hd ▸ rounds_self hk le_rfl
    obtain rfl := hw.unique hself
    have hnonneg := hself.nonneg
    exact hv.mono hself (by linarith)
  · have hnormal : (2 : ℚ) ^ (-1022 : ℤ) ≤ d := by
      have hpos := two_zpow_pos (-1074)
      calc (2 : ℚ) ^ (-1022 : ℤ) = 2 ^ 52 * 2 ^ (-1074 : ℤ) := by
            rw [← two_zpow_add_nat]
            norm_num only
        _ ≤ k * 2 ^ (-1074 : ℤ) := by
            gcongr
            exact_mod_cast le_trans (by norm_num) hk
        _ = d := hd.symm
    have hpower : Rounds (2 ^ (-1022 : ℤ)) (2 ^ (-1022 : ℤ)) := by
      simpa using rounds_self (m := 1) (e := -1022) (by norm_num) (by norm_num)
    by_contra hlt
    have hw' := hw.le_of_normal (hpower.mono hw hnormal)
    have hv' := hv.le_of_normal (hnormal.trans (not_le.mp hlt).le)
    have hpos := (two_zpow_pos (-1022)).trans_le hnormal
    norm_num only at hw' hv'
    linarith

/-- Half of a rounded difference lies between zero and the exact one. -/
theorem SignedRounds.half_mem {k : ℤ} (hd : d = k * 2 ^ (-1074 : ℤ)) (hw : SignedRounds d w)
    (hv : SignedRounds (w / 2) v) (hnonneg : 0 ≤ d) : 0 ≤ v ∧ v ≤ d := by
  have hpos := two_zpow_pos (-1074)
  have hk : 0 ≤ k := by exact_mod_cast nonneg_of_mul_nonneg_left (hd ▸ hnonneg) hpos
  obtain ⟨n, rfl⟩ := Int.eq_ofNat_of_zero_le hk
  have hw := hw.rounds hnonneg
  have hwpos := hw.nonneg
  have hv := hv.rounds (by linarith)
  exact ⟨hv.nonneg, hw.half_le (by exact_mod_cast hd) hv⟩

/-- A finite double is a multiple of the least positive one. -/
theorem exists_value_eq (hx : x.isFinite = true) : ∃ k : ℤ, value x = k * 2 ^ (-1074 : ℤ) := by
  have hfinite := finite_unpacked hx
  unfold value
  generalize unpacked x = u at hfinite
  cases hfinite with
  | zero s => exact ⟨0, by simp⟩
  | @finite s m e hm he =>
      obtain ⟨j, hj⟩ := Int.eq_ofNat_of_zero_le (show 0 ≤ e + 1074 by linarith [hm.least])
      have he' : e = -1074 + j := by omega
      have hmagnitude : (m : ℚ) * 2 ^ e = (m * 2 ^ j : ℕ) * 2 ^ (-1074 : ℤ) := by
        rw [he', two_zpow_add_nat, ← mul_assoc, Nat.cast_mul, Nat.cast_pow, Nat.cast_ofNat]
      rw [valueOf_finite, hmagnitude]
      cases s with
      | positive => exact ⟨(m * 2 ^ j : ℕ), by simp [factor]⟩
      | negative => exact ⟨-(m * 2 ^ j : ℕ), by simp [factor]⟩

theorem capped_zero : capped 0 = 0 := capped_eq (by simpa using beyond_pos)

theorem le_capped (h : v ≤ 0) : v ≤ capped v :=
  le_max_of_le_right (le_min le_rfl (h.trans beyond_pos.le))

theorem capped_eq_of_abs_lt (h : |capped v| < beyond) : capped v = v := by
  obtain ⟨hl, hu⟩ := abs_lt.mp h
  have hmin : capped v = min v beyond := max_eq_right (le_of_not_ge fun hle => by
    rw [capped, max_eq_left hle] at hl
    exact lt_irrefl _ hl)
  rw [hmin] at hu ⊢
  exact min_eq_left (le_of_not_ge fun hle => by
    rw [min_eq_right hle] at hu
    exact lt_irrefl _ hu)

theorem value_half : value 0.5 = 1 / 2 := by
  have hhalf : unpacked 0.5 = .finite .positive (2 ^ 52) (-53) (by norm_num) := by
    rfl
  rw [value, hhalf]
  norm_num [factor]

/-- Half of a computed difference lies between zero and the exact difference. -/
theorem half_sub_mem (hx : x.isFinite = true) (hy : y.isFinite = true)
    (hdifference : (y - x).isFinite = true) :
    (value x ≤ value y →
      0 ≤ value (0.5 * (y - x)) ∧ value (0.5 * (y - x)) ≤ value y - value x) ∧
    (value y ≤ value x →
      value y - value x ≤ value (0.5 * (y - x)) ∧ value (0.5 * (y - x)) ≤ 0) := by
  obtain ⟨i, hi⟩ := exists_value_eq hx
  obtain ⟨j, hj⟩ := exists_value_eq hy
  have hgrid : value y - value x = (j - i : ℤ) * 2 ^ (-1074 : ℤ) := by
    rw [hi, hj, Int.cast_sub, sub_mul]
  obtain ⟨w, hw, hdw⟩ := (isRounded_sub hy hx).value_eq
  obtain ⟨v, hv, hhv⟩ := (isRounded_mul (x := 0.5) rfl hdifference).value_eq
  have hexact : value (y - x) = w :=
    hdw.trans (capped_eq_of_abs_lt (hdw ▸ abs_value_lt hdifference))
  rw [value_half, hexact, one_div_mul_eq_div] at hv
  rw [hhv]
  constructor
  · intro h
    obtain ⟨hpos, hle⟩ := hw.half_mem hgrid hv (sub_nonneg.mpr h)
    exact ⟨capped_zero ▸ capped_mono hpos, (capped_le hpos).trans hle⟩
  · intro h
    have hgrid' : -(value y - value x) = (-(j - i) : ℤ) * 2 ^ (-1074 : ℤ) := by
      rw [hgrid, Int.cast_neg, neg_mul]
    have hv' : SignedRounds (-w / 2) (-v) := neg_div 2 w ▸ hv.neg
    obtain ⟨hpos, hle⟩ := hw.neg.half_mem hgrid' hv' (by linarith)
    have hneg : v ≤ 0 := by linarith
    exact ⟨(by linarith : value y - value x ≤ v).trans (le_capped hneg),
      capped_zero ▸ capped_mono hneg⟩

/-- The difference of two numbers in a range does not overflow if the width of the range does not. -/
theorem isFinite_sub (hl : l.isFinite = true) (hu : u.isFinite = true)
    (hwidth : (u - l).isFinite = true) (hlx : l ≤ x) (hxu : x ≤ u) (hly : l ≤ y) (hyu : y ≤ u) :
    (y - x).isFinite = true := by
  have hx := Scalar.Monotone.isFinite_of_between hl hu hlx hxu
  have hy := Scalar.Monotone.isFinite_of_between hl hu hly hyu
  have hdifference := isRounded_sub hy hx
  refine isFinite_of_value hdifference.isNaN ?_
  obtain ⟨v, hv, hyx⟩ := hdifference.value_eq
  obtain ⟨w, hw, hul⟩ := (isRounded_sub hu hl).value_eq
  have hvalues := And.intro (value_le_of_le hlx) (value_le_of_le hxu)
  have hvalues' := And.intro (value_le_of_le hly) (value_le_of_le hyu)
  have hlt := abs_value_lt hwidth
  rw [hul, capped_eq_of_abs_lt (hul ▸ hlt)] at hlt
  have habove : v ≤ w := hv.mono hw (by linarith)
  have hbelow : -w ≤ v := hw.neg.mono hv (by linarith)
  have habs : |v| < beyond := by
    obtain ⟨-, hlt⟩ := abs_lt.mp hlt
    exact abs_lt.mpr ⟨by linarith, by linarith⟩
  rwa [hyx, capped_eq habs]

theorem isFinite_half (hx : x.isFinite = true) : (0.5 * x : Float).isFinite = true := by
  have hhalf := isRounded_mul (x := 0.5) rfl hx
  have hself := isRounded_value hx
  rw [value_half] at hhalf
  have hlt := abs_lt.mp (abs_value_lt hx)
  refine isFinite_of_value hhalf.isNaN (abs_lt.mpr ?_)
  rcases le_total 0 (value x) with h | h
  · have hpos := isRounded_zero_zero.mono hhalf (by linarith)
    have hle := hhalf.mono hself (by linarith)
    rw [value_zero] at hpos
    constructor <;> linarith
  · have hneg := hhalf.mono isRounded_zero_zero (by linarith)
    have hle := hself.mono hhalf (by linarith)
    rw [value_zero] at hneg
    constructor <;> linarith

/-- Half way from one number to another is between the two. -/
theorem halfway_mem (hx : x.isFinite = true) (hy : y.isFinite = true)
    (hdifference : (y - x).isFinite = true) :
    (x ≤ y → x ≤ x + 0.5 * (y - x) ∧ x + 0.5 * (y - x) ≤ y) ∧
      (y ≤ x → y ≤ x + 0.5 * (y - x) ∧ x + 0.5 * (y - x) ≤ x) := by
  have hsum := isRounded_add hx (isFinite_half hdifference)
  obtain ⟨hup, hdown⟩ := half_sub_mem hx hy hdifference
  constructor
  · intro h
    obtain ⟨hpos, hle⟩ := hup (value_le_of_le h)
    exact ⟨(isRounded_value hx).le hsum (by linarith), hsum.le (isRounded_value hy) (by linarith)⟩
  · intro h
    obtain ⟨hle, hneg⟩ := hdown (value_le_of_le h)
    exact ⟨(isRounded_value hy).le hsum (by linarith), hsum.le (isRounded_value hx) (by linarith)⟩

/-- A range of doubles whose width does not overflow is closed under going half way. -/
theorem closedRange (hl : l.isFinite = true) (hu : u.isFinite = true) (hle : l ≤ u)
    (hwidth : (u - l).isFinite = true) : Box.ClosedRange l u := by
  refine ⟨hle, fun b v hlb hbu hlv hvu => ?_⟩
  have hb := Scalar.Monotone.isFinite_of_between hl hu hlb hbu
  have hv := Scalar.Monotone.isFinite_of_between hl hu hlv hvu
  have hmem := halfway_mem hb hv (isFinite_sub hl hu hwidth hlb hbu hlv hvu)
  rcases Scalar.le_total_of_not_nan (Scalar.Ordered.isNaN_right hlb)
    (Scalar.Ordered.isNaN_right hlv) with h | h
  · obtain ⟨habove, hbelow⟩ := hmem.1 h
    exact ⟨Scalar.Ordered.le_trans hlb habove, Scalar.Ordered.le_trans hbelow hvu⟩
  · obtain ⟨habove, hbelow⟩ := hmem.2 h
    exact ⟨Scalar.Ordered.le_trans hlv habove, Scalar.Ordered.le_trans hbelow hbu⟩

end ParameterScan.Double
