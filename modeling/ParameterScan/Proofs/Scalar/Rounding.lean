import Mathlib

/-!
# Rounding to binary64

The numbers around a magnitude that binary64 can hold lie on a grid of spacing `2ᵗ`, the finest on
which the magnitude takes no more than 53 bits; `t` is never below `-1074`. A magnitude is rounded
to the nearest point of its grid, and to the even one of two. This is monotone and keeps the points
of the grid, and far enough from zero the error is small against the magnitude.

The second half reads the mantissas with their two residual bits as statements about the exact
magnitude and shows that the rounding of the machine is this one. A greatest number is not mentioned
here: an overflow is settled when the result is packed.
-/
namespace ParameterScan.Double

open Float.Model (UnpackedFloat Format totalExponent)
open Float.Model.UnpackedFloat (Sign Accuracy ExtendedMantissa)

/-- A whole number nearest to `r`, the even one of two. -/
structure Nearest (r : ℚ) (n : ℕ) : Prop where
  le_add : r ≤ n + 1 / 2
  le_add' : n ≤ r + 1 / 2
  even : r = n + 1 / 2 ∨ n = r + 1 / 2 → Even n

theorem nearest_natCast (n : ℕ) : Nearest n n := by
  refine ⟨by linarith, by linarith, ?_⟩
  rintro (h | h) <;> linarith

theorem Nearest.mono {r s : ℚ} {n k : ℕ} (hn : Nearest r n) (hk : Nearest s k) (h : r ≤ s) :
    n ≤ k := by
  by_contra hlt
  have hstep : (k : ℚ) + 1 ≤ n := by exact_mod_cast Nat.lt_of_not_le hlt
  have hle := hn.le_add'
  have hge := hk.le_add
  have hneven := hn.even (.inr (by linarith))
  have hkeven := hk.even (.inl (by linarith))
  have heq : n = k + 1 := by
    have : (n : ℚ) = k + 1 := by linarith
    exact_mod_cast this
  rw [Nat.even_iff] at hneven hkeven
  omega

theorem two_zpow_pos (t : ℤ) : (0 : ℚ) < 2 ^ t := zpow_pos two_pos t

theorem two_zpow_le {t u : ℤ} (h : t ≤ u) : (2 : ℚ) ^ t ≤ 2 ^ u :=
  zpow_le_zpow_right₀ one_le_two h

theorem two_zpow_add_nat (t : ℤ) (k : ℕ) : (2 : ℚ) ^ (t + k) = 2 ^ k * 2 ^ t := by
  rw [zpow_add₀ two_ne_zero, zpow_natCast, mul_comm]

/-- The exponent of the grid around a magnitude. -/
structure Grain (q : ℚ) (t : ℤ) : Prop where
  least : -1074 ≤ t
  lt : q < 2 ^ 53 * 2 ^ t
  normal : t = -1074 ∨ 2 ^ 52 * 2 ^ t ≤ q

/-- Between two grids lies a power of two. -/
theorem pow_le_of_lt {t u : ℤ} (h : t < u) : (2 : ℚ) ^ 53 * 2 ^ t ≤ 2 ^ 52 * 2 ^ u := by
  calc (2 : ℚ) ^ 53 * 2 ^ t = 2 ^ 52 * 2 ^ (t + (1 : ℕ)) := by rw [two_zpow_add_nat]; ring
    _ ≤ 2 ^ 52 * 2 ^ u := by gcongr <;> [norm_num; exact h]

theorem Grain.mono {q r : ℚ} {t u : ℤ} (ht : Grain q t) (hu : Grain r u) (h : q ≤ r) : t ≤ u := by
  by_contra hlt
  have hleast := hu.least
  rcases ht.normal with heq | hle
  · omega
  · linarith [hu.lt, pow_le_of_lt (not_le.mp hlt)]

/-- A magnitude and the point of its grid that it is rounded to. -/
def Rounds (q y : ℚ) : Prop :=
  ∃ (t : ℤ) (n : ℕ), Grain q t ∧ Nearest (q / 2 ^ t) n ∧ y = n * 2 ^ t

theorem Grain.nearest_le {q : ℚ} {t : ℤ} {n : ℕ} (ht : Grain q t) (hn : Nearest (q / 2 ^ t) n) :
    n ≤ 2 ^ 53 := by
  refine hn.mono (nearest_natCast (2 ^ 53)) ?_
  rw [div_le_iff₀ (two_zpow_pos t)]
  exact_mod_cast ht.lt.le

theorem Grain.le_nearest {q : ℚ} {t : ℤ} {n : ℕ} (ht : Grain q t) (hn : Nearest (q / 2 ^ t) n) :
    t = -1074 ∨ 2 ^ 52 ≤ n := by
  refine ht.normal.imp_right fun hle => (nearest_natCast (2 ^ 52)).mono hn ?_
  rw [le_div_iff₀ (two_zpow_pos t)]
  exact_mod_cast hle

theorem Rounds.nonneg {q y : ℚ} (h : Rounds q y) : 0 ≤ y := by
  obtain ⟨t, n, -, -, rfl⟩ := h
  have := two_zpow_pos t
  positivity

/-- A larger magnitude is not rounded to a smaller one. -/
theorem Rounds.mono {q r y z : ℚ} (hy : Rounds q y) (hz : Rounds r z) (h : q ≤ r) : y ≤ z := by
  obtain ⟨t, n, ht, hn, rfl⟩ := hy
  obtain ⟨u, k, hu, hk, rfl⟩ := hz
  rcases (ht.mono hu h).lt_or_eq with hlt | rfl
  · have hn53 : (n : ℚ) ≤ 2 ^ 53 := by exact_mod_cast ht.nearest_le hn
    have hk52 : (2 : ℚ) ^ 52 ≤ k := by
      have hleast := ht.least
      exact_mod_cast (hu.le_nearest hk).resolve_left (by omega)
    calc (n : ℚ) * 2 ^ t ≤ 2 ^ 53 * 2 ^ t := by gcongr
      _ ≤ 2 ^ 52 * 2 ^ u := pow_le_of_lt hlt
      _ ≤ k * 2 ^ u := by gcongr
  · have hnk : n ≤ k := hn.mono hk (by gcongr)
    gcongr

theorem Rounds.unique {q y z : ℚ} (hy : Rounds q y) (hz : Rounds q z) : y = z :=
  le_antisymm (hy.mono hz le_rfl) (hz.mono hy le_rfl)

/-- The exponent for a mantissa and an exponent, as the machine finds it. -/
def targetOf (m : ℕ) (e : ℤ) : ℤ := Format.binary64.targetExponent (totalExponent m e)

theorem targetOf_eq (m : ℕ) (e : ℤ) : targetOf m e = max (m.log2 + e - 52) (-1074) := by
  simp only [targetOf, Format.targetExponent, totalExponent, Format.mantissaBits,
    Format.minExponent]
  norm_num
  omega

/-- The machine finds the grid of a magnitude from the leading bit of its whole part. -/
theorem grain_targetOf {m : ℕ} {e : ℤ} {r : ℚ} (hm : 0 < m) (hle : m ≤ r) (hlt : r < m + 1) :
    Grain (r * 2 ^ e) (targetOf m e) := by
  have hlow : (2 : ℚ) ^ m.log2 ≤ m := by exact_mod_cast Nat.log2_self_le hm.ne'
  have hhigh : (m : ℚ) + 1 ≤ 2 ^ (m.log2 + 1) := by exact_mod_cast Nat.lt_log2_self
  have htarget := targetOf_eq m e
  refine ⟨by omega, ?_, ?_⟩
  · calc r * 2 ^ e < 2 ^ (m.log2 + 1) * 2 ^ e := by gcongr; linarith
      _ = 2 ^ (e + (m.log2 + 1 : ℕ)) := (two_zpow_add_nat e _).symm
      _ ≤ 2 ^ (targetOf m e + (53 : ℕ)) := two_zpow_le (by push_cast; omega)
      _ = 2 ^ 53 * 2 ^ targetOf m e := two_zpow_add_nat _ _
  · by_cases hmin : targetOf m e = -1074
    · exact .inl hmin
    · refine .inr ?_
      calc (2 : ℚ) ^ 52 * 2 ^ targetOf m e = 2 ^ (targetOf m e + (52 : ℕ)) :=
            (two_zpow_add_nat _ _).symm
        _ = 2 ^ (e + (m.log2 : ℕ)) := by congr 1; push_cast; omega
        _ = 2 ^ m.log2 * 2 ^ e := two_zpow_add_nat e _
        _ ≤ r * 2 ^ e := by gcongr; linarith

/-- What can be written with 53 bits from `2⁻¹⁰⁷⁴` up is kept. -/
theorem rounds_self {m : ℕ} {e : ℤ} (hm : m < 2 ^ 53) (he : -1074 ≤ e) :
    Rounds (m * 2 ^ e) (m * 2 ^ e) := by
  rcases Nat.eq_zero_or_pos m with rfl | hpos
  · refine ⟨-1074, 0, ⟨le_rfl, ?_, .inl rfl⟩, ?_, by simp⟩
    · simp
    · simpa using nearest_natCast 0
  · have hlog : m.log2 < 53 := (Nat.log2_lt hpos.ne').mpr hm
    have htarget := targetOf_eq m e
    obtain ⟨k, hk⟩ := Int.eq_ofNat_of_zero_le (show 0 ≤ e - targetOf m e by omega)
    have hgrid : (m : ℚ) * 2 ^ e = ((m * 2 ^ k : ℕ) : ℚ) * 2 ^ targetOf m e := by
      have he : e = targetOf m e + k := by omega
      calc (m : ℚ) * 2 ^ e = m * 2 ^ (targetOf m e + k) := by rw [← he]
        _ = ((m * 2 ^ k : ℕ) : ℚ) * 2 ^ targetOf m e := by
          rw [two_zpow_add_nat]
          push_cast
          ring
    refine ⟨targetOf m e, m * 2 ^ k, grain_targetOf hpos le_rfl (by linarith), ?_, hgrid⟩
    rw [hgrid, mul_div_cancel_right₀ _ (two_zpow_pos _).ne']
    exact nearest_natCast _

theorem rounds_zero : Rounds 0 0 := by
  simpa using rounds_self (m := 0) (e := 0) (by norm_num) (by norm_num)

theorem Rounds.eq_zero {y : ℚ} (h : Rounds 0 y) : y = 0 := h.unique rounds_zero

/-- A number and what it is rounded to. A negative one is rounded by its magnitude. -/
def SignedRounds (q v : ℚ) : Prop := 0 ≤ q ∧ Rounds q v ∨ q ≤ 0 ∧ Rounds (-q) (-v)

theorem SignedRounds.mono {q r v w : ℚ} (hv : SignedRounds q v) (hw : SignedRounds r w)
    (h : q ≤ r) : v ≤ w := by
  rcases hv with ⟨hq, hv⟩ | ⟨hq, hv⟩
  · rcases hw with ⟨hr, hw⟩ | ⟨hr, hw⟩
    · exact hv.mono hw h
    · obtain rfl : r = 0 := le_antisymm hr (hq.trans h)
      obtain rfl : q = 0 := le_antisymm h hq
      rw [neg_zero] at hw
      linarith [hv.eq_zero, hw.eq_zero]
  · rcases hw with ⟨hr, hw⟩ | ⟨hr, hw⟩
    · linarith [hv.nonneg, hw.nonneg]
    · linarith [hw.mono hv (neg_le_neg h)]

/-- A result from `2⁻¹⁰²²` up exceeds the exact magnitude by little. -/
theorem Rounds.le_of_normal {q y : ℚ} (h : Rounds q y) (hy : 2 ^ (-1022 : ℤ) ≤ y) :
    y ≤ q * (1 + 2 ^ (-52 : ℤ)) := by
  obtain ⟨t, n, ht, hn, rfl⟩ := h
  have hle : (n : ℚ) * 2 ^ t ≤ q + 2 ^ t / 2 := by
    have hn' := hn.le_add'
    have hpt := two_zpow_pos t
    calc (n : ℚ) * 2 ^ t ≤ (q / 2 ^ t + 1 / 2) * 2 ^ t := by gcongr
      _ = q + 2 ^ t / 2 := by field_simp
  have hgrid : (2 : ℚ) ^ 51 * 2 ^ t ≤ q := by
    rcases ht.normal with rfl | hnormal
    · have hsplit : (2 : ℚ) ^ (-1022 : ℤ) = 2 ^ 52 * 2 ^ (-1074 : ℤ) := by
        rw [← two_zpow_add_nat]
        norm_num only
      have hpos := two_zpow_pos (-1074)
      rw [hsplit] at hy
      norm_num only at hy hle ⊢
      linarith
    · have hpos := two_zpow_pos t
      linarith
  have hsmall : (2 : ℚ) ^ (-52 : ℤ) = 1 / 2 ^ 52 := by norm_num
  rw [hsmall]
  linarith

/-- What the mantissa with its two residual bits says about the exact magnitude. -/
def Describes (em : ExtendedMantissa) (r : ℚ) : Prop :=
  match em.roundBit, em.stickyBit with
  | false, false => r = em.mantissa
  | false, true => em.mantissa < r ∧ r < em.mantissa + 1 / 2
  | true, false => r = em.mantissa + 1 / 2
  | true, true => em.mantissa + 1 / 2 < r ∧ r < em.mantissa + 1

theorem Describes.whole {em : ExtendedMantissa} {r : ℚ} (h : Describes em r) :
    em.mantissa ≤ r ∧ r < em.mantissa + 1 := by
  obtain ⟨m, round, sticky⟩ := em
  cases round <;> cases sticky <;> simp only [Describes] at h <;> constructor <;> linarith

theorem describes_exact (m : ℕ) : Describes (.ofMantissaAndAccuracy m .exact) m := rfl

theorem Describes.shiftRightOne {em : ExtendedMantissa} {r : ℚ} (h : Describes em r) :
    Describes em.shiftRightOne (r / 2) := by
  obtain ⟨m, round, sticky⟩ := em
  have hsplit : ((m % 2 : ℕ) : ℚ) + 2 * ((m / 2 : ℕ) : ℚ) = m := by
    exact_mod_cast Nat.mod_add_div m 2
  rcases Nat.mod_two_eq_zero_or_one m with hm | hm
  · have hshift : (⟨m, round, sticky⟩ : ExtendedMantissa).shiftRightOne =
        ⟨m / 2, false, round || sticky⟩ := by simp [ExtendedMantissa.shiftRightOne, hm]
    rw [hshift]
    rw [hm, Nat.cast_zero] at hsplit
    cases round <;> cases sticky <;> simp only [Describes, Bool.or_self, Bool.or_true,
      Bool.or_false] at h ⊢
    · linarith
    all_goals constructor <;> linarith
  · have hshift : (⟨m, round, sticky⟩ : ExtendedMantissa).shiftRightOne =
        ⟨m / 2, true, round || sticky⟩ := by simp [ExtendedMantissa.shiftRightOne, hm]
    rw [hshift]
    rw [hm, Nat.cast_one] at hsplit
    cases round <;> cases sticky <;> simp only [Describes, Bool.or_self, Bool.or_true,
      Bool.or_false] at h ⊢
    · linarith
    all_goals constructor <;> linarith

theorem Describes.shiftRight {em : ExtendedMantissa} {r : ℚ} (h : Describes em r) (k : ℕ) :
    Describes (em >>> k) (r / 2 ^ k) := by
  change Describes (k.repeat ExtendedMantissa.shiftRightOne em) _
  induction k with
  | zero => simpa [Nat.repeat] using h
  | succ k ih =>
      rw [pow_succ, ← div_div]
      exact ih.shiftRightOne

theorem Describes.nearest {em : ExtendedMantissa} {r : ℚ} (h : Describes em r) :
    Nearest r em.roundedMantissa := by
  obtain ⟨m, round, sticky⟩ := em
  cases round <;> cases sticky <;> simp only [Describes] at h
  · change Nearest r m
    rw [h]
    exact nearest_natCast m
  · change Nearest r m
    refine ⟨by linarith, by linarith, ?_⟩
    rintro (heq | heq) <;> linarith
  · change Nearest r (m + m % 2)
    have hodd : ((m % 2 : ℕ) : ℚ) ≤ 1 := by exact_mod_cast Nat.lt_succ_iff.mp (Nat.mod_lt m two_pos)
    have hpos : (0 : ℚ) ≤ (m % 2 : ℕ) := Nat.cast_nonneg _
    refine ⟨by push_cast; linarith, by push_cast; linarith, fun _ => ?_⟩
    rw [Nat.even_iff]
    omega
  · change Nearest r (m + 1)
    refine ⟨by push_cast; linarith, by push_cast; linarith, ?_⟩
    push_cast
    rintro (heq | heq) <;> linarith

/-- The mantissa and the exponent of a finite double, the exponent perhaps too large. -/
structure Canonical (m : ℕ) (e : ℤ) : Prop where
  pos : 0 < m
  lt : m < 2 ^ 53
  least : -1074 ≤ e
  normal : e = -1074 ∨ 2 ^ 52 ≤ m

/-- A magnitude with a sign, in the form that the machine packs. -/
inductive Stands (s : Sign) : ℚ → UnpackedFloat → Prop
  | zero : Stands s 0 (.zero s)
  | finite {m : ℕ} {e : ℤ} (h : Canonical m e) : Stands s (m * 2 ^ e) (.finite s m e h.pos)

theorem Canonical.rounds {m : ℕ} {e : ℤ} (h : Canonical m e) :
    Rounds (m * 2 ^ e) (m * 2 ^ e) := rounds_self h.lt h.least

section Shifts

open Float.Model.UnpackedFloat

theorem shiftToTargetExponent_eq (m : ℕ) (e : ℤ) (acc : Accuracy) :
    shiftToTargetExponent .binary64 m e acc =
      (ExtendedMantissa.ofMantissaAndAccuracy m acc >>> (targetOf m e - e).toNat,
        e + (targetOf m e - e).toNat) := rfl

theorem shift_exact_of_lt {n : ℕ} {t : ℤ} (hlt : n < 2 ^ 53) (ht : -1074 ≤ t) :
    shiftToTargetExponent .binary64 n t .exact = (⟨n, false, false⟩, t) := by
  have hlog : n.log2 ≤ 52 := by
    rcases Nat.eq_zero_or_pos n with rfl | hpos
    · simp
    · have hlog := (Nat.log2_lt hpos.ne').mpr hlt
      omega
  have htarget := targetOf_eq n t
  have hshift : (targetOf n t - t).toNat = 0 := by omega
  rw [shiftToTargetExponent_eq, hshift, Nat.cast_zero, add_zero]
  rfl

/-- A mantissa that has been rounded up to 54 bits loses a zero. -/
theorem shift_exact_pow {t : ℤ} (ht : -1074 ≤ t) :
    shiftToTargetExponent .binary64 (2 ^ 53) t .exact = (⟨2 ^ 52, false, false⟩, t + 1) := by
  have hlog : (2 ^ 53 : ℕ).log2 = 53 := Nat.log2_two_pow
  have htarget := targetOf_eq (2 ^ 53) t
  have hshift : (targetOf (2 ^ 53) t - t).toNat = 1 := by omega
  rw [shiftToTargetExponent_eq, hshift]
  rfl

/-- The last steps of the machine, after the mantissa has been rounded. -/
theorem stands_of_rounded (s : Sign) {n : ℕ} {t : ℤ} (ht : -1074 ≤ t) (hle : n ≤ 2 ^ 53)
    (hge : t = -1074 ∨ 2 ^ 52 ≤ n) :
    Stands s (n * 2 ^ t)
      (let (em, e) := shiftToTargetExponent .binary64 n t .exact
      if h : em.mantissa = 0 then .zero s
      else .finite s em.mantissa e (Nat.pos_of_ne_zero h)) := by
  rcases hle.lt_or_eq with hlt | rfl
  · rw [shift_exact_of_lt hlt ht]
    rcases Nat.eq_zero_or_pos n with rfl | hpos
    · simpa using Stands.zero
    · simp only [hpos.ne', dite_false]
      exact .finite ⟨hpos, hlt, ht, hge⟩
  · have hvalue : ((2 ^ 53 : ℕ) : ℚ) * 2 ^ t = ((2 ^ 52 : ℕ) : ℚ) * 2 ^ (t + 1) := by
      rw [zpow_add_one₀ two_ne_zero]
      push_cast
      ring
    rw [shift_exact_pow ht, hvalue]
    exact .finite ⟨by norm_num, by norm_num, by omega, .inr le_rfl⟩

theorem mantissa_ofMantissaAndAccuracy (m : ℕ) (acc : Accuracy) :
    (ExtendedMantissa.ofMantissaAndAccuracy m acc).mantissa = m := by
  cases acc with
  | exact => rfl
  | inexact o => cases o <;> rfl

/-- The machine rounds a magnitude that it knows by a mantissa with enough bits, or by one whose
last bit is worth too little to be kept. -/
theorem stands_roundWithAccuracy (s : Sign) {m : ℕ} {e : ℤ} {acc : Accuracy} {r : ℚ}
    (hr : Describes (.ofMantissaAndAccuracy m acc) r) (henough : 52 ≤ m.log2 ∨ e ≤ -1074) :
    ∃ y, Rounds (r * 2 ^ e) y ∧ Stands s y (roundWithAccuracy .binary64 s m e acc) := by
  have hwhole := hr.whole
  rw [mantissa_ofMantissaAndAccuracy] at hwhole
  have htarget := targetOf_eq m e
  obtain ⟨k, hk⟩ := Int.eq_ofNat_of_zero_le (show 0 ≤ targetOf m e - e by omega)
  have hshift : (targetOf m e - e).toNat = k := by omega
  have hsum : e + k = targetOf m e := by omega
  have hexact : r * 2 ^ e / 2 ^ targetOf m e = r / 2 ^ k := by
    rw [← hsum, two_zpow_add_nat]
    have hpe := two_zpow_pos e
    field_simp
  have hgrain : Grain (r * 2 ^ e) (targetOf m e) := by
    rcases Nat.eq_zero_or_pos m with rfl | hpos
    · have hmin : targetOf 0 e = -1074 := by
        simp only [Nat.log2_zero] at htarget henough
        omega
      rw [hmin]
      refine ⟨le_rfl, ?_, .inl rfl⟩
      have hpow := two_zpow_le (henough.resolve_left (by simp))
      have hpe := two_zpow_pos e
      push_cast at hwhole
      nlinarith
    · exact grain_targetOf hpos hwhole.1 hwhole.2
  have hnearest : Nearest (r * 2 ^ e / 2 ^ targetOf m e)
      (ExtendedMantissa.ofMantissaAndAccuracy m acc >>> k).roundedMantissa := by
    rw [hexact]
    exact (hr.shiftRight k).nearest
  refine ⟨_, ⟨_, _, hgrain, hnearest, rfl⟩, ?_⟩
  unfold roundWithAccuracy
  rw [shiftToTargetExponent_eq, hshift, hsum]
  exact stands_of_rounded s hgrain.least (hgrain.nearest_le hnearest) (hgrain.le_nearest hnearest)

theorem log2_shiftLeft {m : ℕ} (hm : 0 < m) (k : ℕ) : (m <<< k).log2 = m.log2 + k := by
  rw [Nat.shiftLeft_eq, Nat.log2_eq_iff (by positivity)]
  refine ⟨?_, ?_⟩
  · rw [pow_add]
    exact Nat.mul_le_mul_right _ (Nat.log2_self_le hm.ne')
  · calc m * 2 ^ k < 2 ^ (m.log2 + 1) * 2 ^ k :=
          Nat.mul_lt_mul_of_pos_right Nat.lt_log2_self (by positivity)
      _ = 2 ^ (m.log2 + k + 1) := by
          rw [← pow_add]
          congr 1
          omega

theorem shiftLeft_mul_zpow (m k : ℕ) (e : ℤ) :
    ((m <<< k : ℕ) : ℚ) * 2 ^ (e - k) = m * 2 ^ e := by
  have hsum : e = e - k + k := by omega
  calc ((m <<< k : ℕ) : ℚ) * 2 ^ (e - k) = m * (2 ^ k * 2 ^ (e - k)) := by
        rw [Nat.shiftLeft_eq]
        push_cast
        ring
    _ = m * 2 ^ e := by rw [← two_zpow_add_nat, ← hsum]

/-- The same for a magnitude that is given by a mantissa of any number of bits. -/
theorem stands_round (s : Sign) {m : ℕ} (hm : 0 < m) (e : ℤ) :
    ∃ y, Rounds (m * 2 ^ e) y ∧ Stands s y (round .binary64 s m e) := by
  have htarget := targetOf_eq m e
  have hround : round .binary64 s m e = roundWithAccuracy .binary64 s
      (m <<< (e - targetOf m e).toNat) (e - (e - targetOf m e).toNat) .exact := rfl
  have hlog := log2_shiftLeft hm (e - targetOf m e).toNat
  obtain ⟨y, hy, hstands⟩ := stands_roundWithAccuracy s (e := e - (e - targetOf m e).toNat)
    (describes_exact (m <<< (e - targetOf m e).toNat)) (by omega)
  rw [shiftLeft_mul_zpow] at hy
  exact ⟨y, hy, hround ▸ hstands⟩

end Shifts

end ParameterScan.Double
