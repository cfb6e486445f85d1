import ParameterScan.Proofs.Scalar.Double
import ParameterScan.Proofs.Scalar.Rounding

/-!
# The arithmetic of doubles

A double that is not `NaN` has an exact rational value, an infinity that of the power of two beyond
the greatest number. Doubles compare as their values, and the result of an operation on finite
doubles is the exact result, rounded. Hence rounded arithmetic is monotone where exact arithmetic
is, through overflow and underflow, and its errors are small where the results are normal numbers.
-/
namespace ParameterScan.Double

open Float.Model (UnpackedFloat Format totalExponent)
open Float.Model.UnpackedFloat (Sign unpackSign unpackExponent unpackMantissa packComponents
  decreaseExponent)

/-- The sign as a factor. -/
def factor : Sign → ℚ
  | .positive => 1
  | .negative => -1

/-- The power of two beyond the greatest number, where the infinities stand. -/
def beyond : ℚ := 2 ^ 53 * 2 ^ (971 : ℤ)

/-- The exact value. A `NaN` has one too, which says nothing. -/
def valueOf : UnpackedFloat → ℚ
  | .infinity s => factor s * beyond
  | .finite s m e _ => factor s * (m * 2 ^ e)
  | _ => 0

def value (x : Float) : ℚ := valueOf (unpacked x)

theorem beyond_pos : 0 < beyond := by
  unfold beyond
  positivity

/-- What a double is when it is unpacked. -/
inductive Proper : UnpackedFloat → Prop
  | infinity (s : Sign) : Proper (.infinity s)
  | zero (s : Sign) : Proper (.zero s)
  | finite (s : Sign) {m : ℕ} {e : ℤ} (h : Canonical m e) (he : e ≤ 971) :
      Proper (.finite s m e h.pos)

section Fields

variable {s : Sign} {e : BitVec 11} {m : BitVec 52}

theorem exponentOf_lt (b : Bits) : exponentOf b < 2 ^ 11 := (unpackExponent b).isLt

theorem unpackExponent_eq_neg_one {b : Bits} (h : exponentOf b = 2047) :
    unpackExponent b = -1#_ := BitVec.eq_of_toNat_eq h

theorem exponentOf_finite {b : Bits} {s : Sign} {m : ℕ} {e : ℤ} {h : 0 < m}
    (hb : UnpackedFloat.unpack Format.binary64 b = .finite s m e h) : exponentOf b ≤ 2046 := by
  have hlt := exponentOf_lt b
  by_contra hle
  have hexp := unpackExponent_eq_neg_one (b := b) (by omega)
  unfold UnpackedFloat.unpack at hb
  simp only [hexp, if_true] at hb
  split at hb <;> cases hb

theorem signOf_packComponents : signOf (packComponents .binary64 s e m) = s := by
  have hsign : unpackSign (packComponents .binary64 s e m) = s.toBitVec := by
    ext i hi
    obtain rfl : i = 0 := by omega
    simp only [unpackSign, packComponents, BitVec.extractLsb, BitVec.cast_eq,
      BitVec.getElem_extractLsb', BitVec.getLsbD_append]
    simp
  rw [signOf, hsign]
  cases s <;> rfl

theorem exponentOf_packComponents : exponentOf (packComponents .binary64 s e m) = e.toNat := by
  rw [exponentOf, Float.Model.UnpackedFloat.unpackExponent_packComponents]

theorem mantissaOf_packComponents : mantissaOf (packComponents .binary64 s e m) = m.toNat := by
  rw [mantissaOf, Float.Model.UnpackedFloat.unpackMantissa_packComponents]

end Fields

theorem proper_unpacked {x : Float} (h : x.isNaN = false) : Proper (unpacked x) := by
  have hdecoded := decoded x.toModel.toBits.toBitVec
  have hmantissa := mantissaOf_lt x.toModel.toBits.toBitVec
  have hnan : (unpacked x).isNaN = false := h
  change Decoded _ (unpacked x) at hdecoded
  cases hx : unpacked x with
  | notANumber =>
      rw [hx] at hnan
      cases hnan
  | infinity s => exact .infinity s
  | zero s => exact .zero s
  | finite s m e hm =>
      have hle := exponentOf_finite hx
      rw [hx] at hdecoded
      cases hdecoded with
      | finite _ _ hfields => exact .finite s ⟨hm, by omega, by omega, by omega⟩ (by omega)

section Packing

variable {s : Sign} {m : ℕ} {e : ℤ}

/-- The tests of the packing, in numbers. -/
theorem pack_eq (h : 0 < m) : UnpackedFloat.pack .binary64 (.finite s m e h) =
    if 2 ^ 11 ≤ (e + (1023 : ℕ) + (52 : ℕ)).toNat + 1 then
      UnpackedFloat.packedInfinity .binary64 s
    else if m.log2 + 1 = 53 then
      packComponents .binary64 s (.ofNat 11 (e + (1023 : ℕ) + (52 : ℕ)).toNat) (.ofNat 52 m)
    else packComponents .binary64 s 0#11 (.ofNat 52 m) := rfl

/-- The fields of a finite number. -/
theorem pack_finite (h : Canonical m e) (he : e ≤ 971) :
    ∃ b : Bits, UnpackedFloat.pack .binary64 (.finite s m e h.pos) = b ∧ signOf b = s ∧
      exponentOf b ≤ 2046 ∧ (exponentOf b = 0 ∧ mantissaOf b = m ∧ e = -1074 ∨
        0 < exponentOf b ∧ m = 2 ^ 52 + mantissaOf b ∧ e = exponentOf b - 1075) := by
  refine ⟨_, rfl, ?_⟩
  have hleast := h.least
  have hlt := h.lt
  rw [pack_eq, if_neg (by push_cast; omega)]
  by_cases hnormal : 2 ^ 52 ≤ m
  · have hlog : m.log2 = 52 := (Nat.log2_eq_iff h.pos.ne').mpr ⟨hnormal, hlt⟩
    rw [if_pos (by omega), signOf_packComponents, exponentOf_packComponents,
      mantissaOf_packComponents, BitVec.toNat_ofNat, BitVec.toNat_ofNat]
    exact ⟨rfl, by push_cast; omega, .inr (by push_cast; omega)⟩
  · have hlog := (Nat.log2_lt h.pos.ne').mpr (not_le.mp hnormal)
    have hleast := h.normal.resolve_right hnormal
    rw [if_neg (by omega), signOf_packComponents, exponentOf_packComponents,
      mantissaOf_packComponents, BitVec.toNat_ofNat, BitVec.toNat_ofNat]
    exact ⟨rfl, by omega, .inl ⟨by omega, by omega, hleast⟩⟩

theorem unpacked_packed_finite (h : Canonical m e) (he : e ≤ 971) :
    unpacked (packed (.finite s m e h.pos)) = .finite s m e h.pos := by
  obtain ⟨b, hb, hs, hle, hfields⟩ := pack_finite (s := s) h he
  have hunpacked : unpacked (packed (.finite s m e h.pos)) = UnpackedFloat.unpack .binary64 b := by
    rw [← hb]
    rfl
  have hdecoded := decoded b
  have hpos := h.pos
  rw [hunpacked]
  generalize UnpackedFloat.unpack Format.binary64 b = u at hdecoded
  cases hdecoded with
  | infinity _ hexp _ => omega
  | notANumber hexp _ =>
      have hexp' : exponentOf b = 2047 := by
        rw [exponentOf, hexp]
        rfl
      omega
  | zero _ hexp hmant => omega
  | @finite s' m' e' _ hs' hfields' =>
      obtain rfl : s' = s := hs'.symm.trans hs
      obtain rfl : m' = m := by omega
      obtain rfl : e' = e := by omega
      rfl

theorem unpacked_packed_infinity (s : Sign) : unpacked (packed (.infinity s)) = .infinity s := by
  cases s <;> rfl

theorem unpacked_packed_zero (s : Sign) : unpacked (packed (.zero s)) = .zero s := by
  cases s <;> rfl

/-- A number that is too large becomes an infinity. -/
theorem unpacked_packed_large (h : Canonical m e) (he : 971 < e) :
    unpacked (packed (.finite s m e h.pos)) = .infinity s := by
  have hpack : UnpackedFloat.pack .binary64 (.finite s m e h.pos) =
      UnpackedFloat.pack .binary64 (.infinity s) := by
    rw [pack_eq, if_pos (by push_cast; omega)]
    rfl
  rw [← unpacked_packed_infinity s]
  unfold unpacked packed Float.Model.pack
  simp only [hpack]

end Packing

section Values

variable {m n : ℕ} {e f : ℤ} {u v : UnpackedFloat} {x y : Float}

theorem Canonical.magnitude_pos (h : Canonical m e) : (0 : ℚ) < m * 2 ^ e := by
  have hm : (0 : ℚ) < m := by exact_mod_cast h.pos
  positivity

theorem Canonical.magnitude_lt (h : Canonical m e) (he : e ≤ 971) : (m : ℚ) * 2 ^ e < beyond := by
  have hm : (m : ℚ) < 2 ^ 53 := by exact_mod_cast h.lt
  have hpow := two_zpow_le he
  calc (m : ℚ) * 2 ^ e < 2 ^ 53 * 2 ^ e := by gcongr
    _ ≤ beyond := by unfold beyond; gcongr

theorem Canonical.beyond_le (h : Canonical m e) (he : 971 < e) : beyond ≤ m * 2 ^ e := by
  have hm : (2 : ℚ) ^ 52 ≤ m := by
    have hnormal := h.normal.resolve_left (by omega)
    exact_mod_cast hnormal
  calc beyond ≤ 2 ^ 52 * 2 ^ e := pow_le_of_lt he
    _ ≤ m * 2 ^ e := by gcongr

/-- Magnitudes with different exponents compare as these, since the greater one has all its bits. -/
theorem Canonical.lt_of_exponent (hm : Canonical m e) (hn : Canonical n f)
    (h : e < f ∨ e = f ∧ m < n) : (m : ℚ) * 2 ^ e < n * 2 ^ f := by
  rcases h with hlt | ⟨rfl, hlt⟩
  · have hm53 : (m : ℚ) < 2 ^ 53 := by exact_mod_cast hm.lt
    have hn52 : (2 : ℚ) ^ 52 ≤ n := by
      have hleast := hm.least
      exact_mod_cast hn.normal.resolve_left (by omega)
    calc (m : ℚ) * 2 ^ e < 2 ^ 53 * 2 ^ e := by gcongr
      _ ≤ 2 ^ 52 * 2 ^ f := pow_le_of_lt hlt
      _ ≤ n * 2 ^ f := by gcongr
  · gcongr

theorem valueOf_lt_of_below (hu : Proper u) (hv : Proper v) (h : (rank u).Below (rank v)) :
    valueOf u < valueOf v := by
  have hbeyond := beyond_pos
  cases hu with
  | infinity s =>
      cases hv with
      | infinity t => cases s <;> cases t <;> simp_all [rank, Rank.Below, valueOf, factor]
      | zero t => cases s <;> simp_all [rank, Rank.Below, valueOf, factor]
      | finite t hn hf =>
          have hlt := hn.magnitude_lt hf
          have hpos := hn.magnitude_pos
          cases s <;> cases t <;> simp_all [rank, Rank.Below, valueOf, factor]
          linarith
  | zero s =>
      cases hv with
      | infinity t => cases t <;> simp_all [rank, Rank.Below, valueOf, factor]
      | zero t => simp_all [rank, Rank.Below]
      | finite t hn hf =>
          have hpos := hn.magnitude_pos
          cases t <;> simp_all [rank, Rank.Below, valueOf, factor]
  | finite s hm he =>
      have hlt := hm.magnitude_lt he
      have hpos := hm.magnitude_pos
      cases hv with
      | infinity t =>
          cases s <;> cases t <;> simp_all [rank, Rank.Below, valueOf, factor]
          linarith
      | zero t => cases s <;> simp_all [rank, Rank.Below, valueOf, factor]
      | finite t hn hf =>
          have hpos' := hn.magnitude_pos
          cases s <;> cases t <;> simp only [rank, Rank.Below, valueOf, factor] at h ⊢
          · have := hn.lt_of_exponent hm (by omega)
            linarith
          · linarith
          · omega
          · have := hm.lt_of_exponent hn (by omega)
            linarith

theorem valueOf_eq_of_sameUpToZero (h : SameUpToZero u v) : valueOf u = valueOf v := by
  rcases h with rfl | ⟨⟨s, rfl⟩, t, rfl⟩ <;> rfl

/-- Doubles compare as their values. -/
theorem lt_iff_value (hx : x.isNaN = false) (hy : y.isNaN = false) : x < y ↔ value x < value y := by
  rw [lt_iff]
  refine ⟨fun h => valueOf_lt_of_below (proper_unpacked hx) (proper_unpacked hy) h.2.2,
    fun h => ⟨hx, hy, ?_⟩⟩
  by_contra hxy
  by_cases hyx : (rank (unpacked y)).Below (rank (unpacked x))
  · exact lt_asymm h (valueOf_lt_of_below (proper_unpacked hy) (proper_unpacked hx) hyx)
  · exact h.ne (valueOf_eq_of_sameUpToZero (sameUpToZero_of_rank hx hy hxy hyx))

theorem le_iff_value (hx : x.isNaN = false) (hy : y.isNaN = false) : x ≤ y ↔ value x ≤ value y := by
  rw [← not_lt (b := value x), ← lt_iff_value hy hx, le_iff, lt_iff]
  simp only [hx, hy, true_and]

theorem value_le_of_le (h : x ≤ y) : value x ≤ value y :=
  (le_iff_value (Scalar.Ordered.isNaN_left h) (Scalar.Ordered.isNaN_right h)).mp h

theorem value_zero : value 0 = 0 := rfl

/-- A double that is finite is zero or has a mantissa and an exponent. -/
inductive Finite : UnpackedFloat → Prop
  | zero (s : Sign) : Finite (.zero s)
  | finite (s : Sign) {m : ℕ} {e : ℤ} (h : Canonical m e) (he : e ≤ 971) :
      Finite (.finite s m e h.pos)

theorem finite_unpacked (h : x.isFinite = true) : Finite (unpacked x) := by
  have hproper := proper_unpacked (isNaN_of_isFinite h)
  change (unpacked x).isFinite = true at h
  generalize unpacked x = u at hproper h
  cases hproper with
  | infinity s => cases h
  | zero s => exact .zero s
  | finite s hm he => exact .finite s hm he

theorem abs_value_lt (h : x.isFinite = true) : |value x| < beyond := by
  have hfinite := finite_unpacked h
  have hbeyond := beyond_pos
  unfold value
  generalize unpacked x = u at hfinite
  cases hfinite with
  | zero s => simpa [valueOf] using hbeyond
  | finite s hm he =>
      have hpos := hm.magnitude_pos
      have hlt := hm.magnitude_lt he
      cases s <;> simp only [valueOf, factor, abs_lt] <;> constructor <;> linarith

theorem isFinite_of_value (hx : x.isNaN = false) (h : |value x| < beyond) : x.isFinite = true := by
  have hproper := proper_unpacked hx
  have hbeyond := beyond_pos
  change (unpacked x).isFinite = true
  unfold value at h
  generalize unpacked x = u at hproper h
  cases hproper with
  | infinity s =>
      cases s <;> simp [valueOf, factor, abs_of_pos hbeyond] at h
  | zero s => rfl
  | finite s hm he => rfl

end Values

section Results

variable {s : Sign} {q r y : ℚ} {u : UnpackedFloat} {x z : Float}

/-- A value moved into the range of doubles. -/
def capped (v : ℚ) : ℚ := max (-beyond) (min v beyond)

theorem capped_mono {v w : ℚ} (h : v ≤ w) : capped v ≤ capped w :=
  max_le_max_left _ (min_le_min_right _ h)

theorem capped_eq {v : ℚ} (h : |v| < beyond) : capped v = v := by
  obtain ⟨hl, hu⟩ := abs_lt.mp h
  rw [capped, min_eq_left hu.le, max_eq_right hl.le]

theorem capped_le {v : ℚ} (h : 0 ≤ v) : capped v ≤ v :=
  max_le (by linarith [beyond_pos]) (min_le_left v beyond)

/-- What is packed has the value that it stands for, up to the infinities. -/
theorem value_packed (h : Stands s y u) :
    (packed u).isNaN = false ∧ value (packed u) = capped (factor s * y) := by
  have hbeyond := beyond_pos
  have hnan : (packed u).isNaN = (unpacked (packed u)).isNaN := rfl
  cases h with
  | zero =>
      rw [hnan, value, unpacked_packed_zero]
      exact ⟨rfl, by rw [mul_zero, capped_eq (by simpa using hbeyond)]; rfl⟩
  | @finite m e hm =>
      by_cases he : e ≤ 971
      · have hpos := hm.magnitude_pos
        have hlt := hm.magnitude_lt he
        rw [hnan, value, unpacked_packed_finite hm he]
        refine ⟨rfl, (capped_eq ?_).symm⟩
        change |factor s * (m * 2 ^ e)| < beyond
        rw [abs_mul, abs_of_pos hpos]
        cases s <;> simpa [factor] using hlt
      · have hle := hm.beyond_le (not_le.mp he)
        rw [hnan, value, unpacked_packed_large hm (not_le.mp he)]
        refine ⟨rfl, ?_⟩
        cases s
        · rw [capped, valueOf, min_eq_left (by simp only [factor]; linarith), max_eq_left]
          · simp [factor]
          · simp only [factor]
            linarith
        · rw [capped, valueOf, min_eq_right (by simp only [factor]; linarith), max_eq_right]
          · simp [factor]
          · linarith

/-- A double that is a rational number, rounded. -/
structure IsRounded (q : ℚ) (x : Float) : Prop where
  isNaN : x.isNaN = false
  value_eq : ∃ v, SignedRounds q v ∧ value x = capped v

theorem isRounded_packed (hq : 0 ≤ q) (hrounds : Rounds q y) (h : Stands s y u) :
    IsRounded (factor s * q) (packed u) := by
  obtain ⟨hnan, hvalue⟩ := value_packed h
  refine ⟨hnan, _, ?_, hvalue⟩
  cases s with
  | positive => exact .inl ⟨by simpa [factor] using hq, by simpa [factor] using hrounds⟩
  | negative => exact .inr ⟨by simpa [factor] using hq, by simpa [factor] using hrounds⟩

/-- Rounding is monotone. -/
theorem IsRounded.mono (hx : IsRounded q x) (hz : IsRounded r z) (h : q ≤ r) :
    value x ≤ value z := by
  obtain ⟨v, hv, hxv⟩ := hx.value_eq
  obtain ⟨w, hw, hzw⟩ := hz.value_eq
  rw [hxv, hzw]
  exact capped_mono (hv.mono hw h)

theorem IsRounded.le (hx : IsRounded q x) (hz : IsRounded r z) (h : q ≤ r) : x ≤ z :=
  (le_iff_value hx.isNaN hz.isNaN).mpr (hx.mono hz h)

/-- A finite double is what its value is rounded to. -/
theorem isRounded_value (h : x.isFinite = true) : IsRounded (value x) x := by
  refine ⟨isNaN_of_isFinite h, value x, ?_, (capped_eq (abs_value_lt h)).symm⟩
  have hfinite := finite_unpacked h
  unfold value
  generalize unpacked x = u at hfinite
  cases hfinite with
  | zero s => exact .inl ⟨le_rfl, rounds_zero⟩
  | finite s hm he =>
      have hpos := hm.magnitude_pos
      cases s with
      | positive => exact .inl ⟨by simpa [valueOf, factor] using hpos.le,
          by simpa [valueOf, factor] using hm.rounds⟩
      | negative => exact .inr ⟨by simpa [valueOf, factor] using hpos.le,
          by simpa [valueOf, factor] using hm.rounds⟩

end Results

section Operations

variable {u v : UnpackedFloat} {x y : Float}

@[simp]
theorem valueOf_zero (s : Sign) : valueOf (.zero s) = 0 := rfl

@[simp]
theorem valueOf_finite (s : Sign) (m : ℕ) (e : ℤ) (h : 0 < m) :
    valueOf (.finite s m e h) = factor s * (m * 2 ^ e) := rfl

theorem isRounded_zero (s : Sign) : IsRounded 0 (packed (.zero s)) := by
  simpa using isRounded_packed le_rfl rounds_zero (.zero (s := s))

theorem isRounded_finite (h : Finite u) : IsRounded (valueOf u) (packed u) := by
  cases h with
  | zero s => exact isRounded_zero s
  | finite s hm he => exact isRounded_packed hm.magnitude_pos.le hm.rounds (.finite hm)

theorem isRounded_of_sameUpToZero (h : SameUpToZero v u) (hu : Finite u) :
    IsRounded (valueOf u) (packed v) := by
  rcases h with rfl | ⟨⟨s, rfl⟩, t, rfl⟩
  · exact isRounded_finite hu
  · exact isRounded_zero s

theorem cast_apply (s : Sign) (m : ℕ) : ((s.apply m : ℤ) : ℚ) = factor s * m := by
  cases s <;> simp [Sign.apply, factor]

@[simp]
theorem factor_neg (s : Sign) : factor (-s) = -factor s := by
  cases s
  · exact (neg_neg 1).symm
  · rfl

theorem factor_mul (s t : Sign) : factor (s * t) = factor s * factor t := by
  cases s with
  | positive => cases t <;> exact (one_mul _).symm
  | negative =>
      cases t with
      | positive => exact (mul_one (-1)).symm
      | negative => exact ((neg_mul_neg 1 1).trans (one_mul (1 : ℚ))).symm

theorem factor_div (s t : Sign) : factor (s / t) = factor s / factor t := by
  have hdiv : s / t = s * t := by cases s <;> cases t <;> rfl
  have hinv : (factor t)⁻¹ = factor t := by cases t <;> norm_num [factor]
  rw [hdiv, factor_mul, div_eq_mul_inv, hinv]

/-- A finer exponent does not change a number. -/
theorem apply_decreaseExponent (s : Sign) (m : ℕ) {e t : ℤ} (h : t ≤ e) :
    ((s.apply (decreaseExponent m e t).1 : ℤ) : ℚ) * 2 ^ t = factor s * (m * 2 ^ e) := by
  have hsum : e - ((e - t).toNat : ℤ) = t := by omega
  have hshift := shiftLeft_mul_zpow m (e - t).toNat e
  rw [hsum] at hshift
  rw [cast_apply, mul_assoc]
  exact congrArg (factor s * ·) hshift

theorem isRounded_normalize (m e : ℤ) (s : Sign) :
    IsRounded (m * 2 ^ e) (packed (Float.Model.UnpackedFloat.normalize .binary64 m e s)) := by
  have hpow := two_zpow_pos e
  unfold Float.Model.UnpackedFloat.normalize
  rcases lt_trichotomy m 0 with hm | rfl | hm
  · rw [Int.compare_eq_lt.mpr hm]
    obtain ⟨k, rfl⟩ := Int.exists_eq_neg_ofNat hm.le
    obtain ⟨y, hy, hstands⟩ := stands_round .negative (m := k) (by omega) e
    have hrounded := isRounded_packed (by positivity) hy hstands
    simpa [factor] using hrounded
  · simpa using isRounded_zero s
  · rw [Int.compare_eq_gt.mpr hm]
    obtain ⟨k, rfl⟩ := Int.eq_ofNat_of_zero_le hm.le
    obtain ⟨y, hy, hstands⟩ := stands_round .positive (m := k) (by omega) e
    have hrounded := isRounded_packed (by positivity) hy hstands
    simpa [factor] using hrounded

theorem isRounded_packed_add (hu : Finite u) (hv : Finite v) :
    IsRounded (valueOf u + valueOf v) (packed (.add .binary64 u v)) := by
  cases hu with
  | zero s =>
      rw [valueOf_zero, zero_add]
      exact isRounded_of_sameUpToZero (add_zero_left s v) hv
  | @finite s m e hm he =>
      cases hv with
      | zero t =>
          rw [valueOf_zero, add_zero]
          exact isRounded_of_sameUpToZero (add_zero_right _ t) (.finite s hm he)
      | @finite t n f hn hf =>
          have hleft := apply_decreaseExponent s m (min_le_left e f)
          have hright := apply_decreaseExponent t n (min_le_right e f)
          have hvalue : factor s * (m * 2 ^ e) + factor t * (n * 2 ^ f) =
              ((s.apply (decreaseExponent m e (min e f)).1 +
                t.apply (decreaseExponent n f (min e f)).1 : ℤ) : ℚ) * 2 ^ min e f := by
            rw [Int.cast_add, add_mul, hleft, hright]
          rw [valueOf_finite, valueOf_finite, hvalue]
          exact isRounded_normalize _ _ .positive

theorem isRounded_packed_sub (hu : Finite u) (hv : Finite v) :
    IsRounded (valueOf u - valueOf v) (packed (.sub .binary64 u v)) := by
  cases hv with
  | zero t =>
      rw [valueOf_zero, sub_zero]
      exact isRounded_of_sameUpToZero (sub_zero_right u t) hu
  | @finite t n f hn hf =>
      cases hu with
      | zero s =>
          have hneg := isRounded_finite (.finite (-t) hn hf)
          rwa [valueOf_finite, factor_neg, neg_mul, ← zero_sub] at hneg
      | @finite s m e hm he =>
          have hleft := apply_decreaseExponent s m (min_le_left e f)
          have hright := apply_decreaseExponent t n (min_le_right e f)
          have hvalue : factor s * (m * 2 ^ e) - factor t * (n * 2 ^ f) =
              ((s.apply (decreaseExponent m e (min e f)).1 -
                t.apply (decreaseExponent n f (min e f)).1 : ℤ) : ℚ) * 2 ^ min e f := by
            rw [Int.cast_sub, sub_mul, hleft, hright]
          rw [valueOf_finite, valueOf_finite, hvalue]
          exact isRounded_normalize _ _ .positive

/-- A product has enough bits, or is among the smallest numbers anyway. -/
theorem Canonical.enough_mul {m n : ℕ} {e f : ℤ} (hm : Canonical m e) (hn : Canonical n f) :
    52 ≤ (m * n).log2 ∨ e + f ≤ -1074 := by
  have hmpos := hm.pos
  have hnpos := hn.pos
  rw [Nat.le_log2 (Nat.mul_pos hmpos hnpos).ne']
  rcases hm.normal with he | hm52
  · rcases hn.normal with hf | hn52
    · exact .inr (by omega)
    · exact .inl (hn52.trans (Nat.le_mul_of_pos_left n hmpos))
  · exact .inl (hm52.trans (Nat.le_mul_of_pos_right m hnpos))

theorem isRounded_packed_mul (hu : Finite u) (hv : Finite v) :
    IsRounded (valueOf u * valueOf v) (packed (.mul .binary64 u v)) := by
  cases hu with
  | zero s =>
      rw [valueOf_zero, zero_mul]
      cases hv with
      | zero t => exact isRounded_zero (s * t)
      | finite t hn hf => exact isRounded_zero (s * t)
  | @finite s m e hm he =>
      cases hv with
      | zero t =>
          rw [valueOf_zero, mul_zero]
          exact isRounded_zero (s * t)
      | @finite t n f hn hf =>
          obtain ⟨y, hy, hstands⟩ :=
            stands_roundWithAccuracy (s * t) (describes_exact (m * n)) (hm.enough_mul hn)
          have hvalue : factor s * (m * 2 ^ e) * (factor t * (n * 2 ^ f)) =
              factor (s * t) * ((m * n : ℕ) * 2 ^ (e + f)) := by
            rw [factor_mul, zpow_add₀ two_ne_zero]
            push_cast
            ring
          rw [valueOf_finite, valueOf_finite, hvalue]
          exact isRounded_packed (by positivity) hy hstands

/-- The remainder of a division, doubled and compared with the divisor, says where the quotient
lies. -/
theorem describes_fraction (m : ℕ) {n : ℕ} (hn : 0 < n) :
    Describes (.ofMantissaAndAccuracy (m / n)
      (Float.Model.UnpackedFloat.accuracyOfFraction (m % n) n)) ((m : ℚ) / n) := by
  have hnpos : (0 : ℚ) < n := by exact_mod_cast hn
  have hsplit : (m : ℚ) / n = (m / n : ℕ) + ((m % n : ℕ) : ℚ) / n := by
    have hdivmod : ((m % n : ℕ) : ℚ) + n * (m / n : ℕ) = m := by
      exact_mod_cast Nat.mod_add_div m n
    rw [← hdivmod, add_div, mul_div_cancel_left₀ _ hnpos.ne', add_comm]
  rw [hsplit]
  unfold Float.Model.UnpackedFloat.accuracyOfFraction
  split_ifs with hzero
  · rw [hzero, Nat.cast_zero, zero_div, add_zero]
    exact describes_exact (m / n)
  · have hpos : (0 : ℚ) < ((m % n : ℕ) : ℚ) / n := by
      have hmod : (0 : ℚ) < (m % n : ℕ) := by exact_mod_cast Nat.pos_of_ne_zero hzero
      positivity
    have hlt : ((m % n : ℕ) : ℚ) / n < 1 := by
      rw [div_lt_one hnpos]
      exact_mod_cast Nat.mod_lt m hn
    rcases lt_trichotomy (2 * (m % n)) n with h | h | h
    · have hhalf : ((m % n : ℕ) : ℚ) / n < 1 / 2 := by
        rw [div_lt_iff₀ hnpos]
        have : 2 * ((m % n : ℕ) : ℚ) < n := by exact_mod_cast h
        linarith
      rw [Nat.compare_eq_lt.mpr h]
      change ((m / n : ℕ) : ℚ) < _ ∧ _ < ((m / n : ℕ) : ℚ) + 1 / 2
      exact ⟨by linarith, by linarith⟩
    · have hhalf : ((m % n : ℕ) : ℚ) / n = 1 / 2 := by
        rw [div_eq_iff hnpos.ne']
        have : 2 * ((m % n : ℕ) : ℚ) = n := by exact_mod_cast h
        linarith
      rw [Nat.compare_eq_eq.mpr h, hhalf]
      rfl
    · have hhalf : 1 / 2 < ((m % n : ℕ) : ℚ) / n := by
        rw [lt_div_iff₀ hnpos]
        have : (n : ℚ) < 2 * (m % n : ℕ) := by exact_mod_cast h
        linarith
      rw [Nat.compare_eq_gt.mpr h]
      change ((m / n : ℕ) : ℚ) + 1 / 2 < _ ∧ _ < ((m / n : ℕ) : ℚ) + 1
      exact ⟨by linarith, by linarith⟩

/-- A quotient is taken with enough bits, or is among the smallest numbers anyway. -/
theorem enough_div {m n : ℕ} {e f t : ℤ} (hm : 0 < m) (hn : 0 < n)
    (ht : t = min (e - f) (max (m.log2 + e - (n.log2 + f) - 53) (-1074))) :
    52 ≤ ((m <<< (e - f - t).toNat) / n).log2 ∨ t ≤ -1074 := by
  by_cases hmin : t ≤ -1074
  · exact .inr hmin
  · refine .inl ?_
    have hlog := log2_shiftLeft hm (e - f - t).toNat
    have hbits : n.log2 + 53 ≤ (m <<< (e - f - t).toNat).log2 := by omega
    have hn2 : n < 2 ^ (n.log2 + 1) := Nat.lt_log2_self
    have hne : m <<< (e - f - t).toNat ≠ 0 := by
      rw [Nat.shiftLeft_eq]
      positivity
    have hle : 2 ^ 52 ≤ (m <<< (e - f - t).toNat) / n := by
      rw [Nat.le_div_iff_mul_le hn]
      calc 2 ^ 52 * n ≤ 2 ^ 52 * 2 ^ (n.log2 + 1) := Nat.mul_le_mul_left _ hn2.le
        _ = 2 ^ (n.log2 + 53) := by ring
        _ ≤ m <<< (e - f - t).toNat := (Nat.le_log2 hne).mp hbits
    exact (Nat.le_log2 (by omega)).mpr hle

theorem isRounded_packed_div (hu : Finite u) {t : Sign} {n : ℕ} {f : ℤ} (hn : 0 < n) :
    IsRounded (valueOf u / valueOf (.finite t n f hn))
      (packed (.div .binary64 u (.finite t n f hn))) := by
  cases hu with
  | zero s =>
      rw [valueOf_zero, zero_div]
      exact isRounded_zero (s / t)
  | @finite s m e hm he =>
      obtain ⟨k, hk⟩ : ∃ k : ℤ, k = min (e - f)
          (Format.binary64.targetExponent (totalExponent m e - totalExponent n f)) := ⟨_, rfl⟩
      have hdiv : UnpackedFloat.div .binary64 (.finite s m e hm.pos) (.finite t n f hn) =
          Float.Model.UnpackedFloat.roundWithAccuracy .binary64 (s / t)
            (m <<< (e - f - k).toNat / n) k (Float.Model.UnpackedFloat.accuracyOfFraction
              (m <<< (e - f - k).toNat % n) n) := by
        rw [hk]
        rfl
      have henough : 52 ≤ ((m <<< (e - f - k).toNat) / n).log2 ∨ k ≤ -1074 := by
        refine enough_div hm.pos hn (hk.trans ?_)
        simp only [Format.targetExponent, totalExponent, Format.mantissaBits, Format.minExponent]
        norm_num
        omega
      obtain ⟨y, hy, hstands⟩ := stands_roundWithAccuracy (s / t)
        (describes_fraction (m <<< (e - f - k).toNat) hn) henough
      have hvalue : factor s * (m * 2 ^ e) / (factor t * (n * 2 ^ f)) =
          factor (s / t) * (((m <<< (e - f - k).toNat : ℕ) : ℚ) / n * 2 ^ k) := by
        have hsum : e - f - ((e - f - k).toNat : ℤ) = k := by omega
        have hshift := shiftLeft_mul_zpow m (e - f - k).toNat (e - f)
        rw [hsum, zpow_sub₀ two_ne_zero] at hshift
        rw [div_mul_eq_mul_div ((m <<< _ : ℕ) : ℚ), hshift, factor_div]
        ring
      rw [hdiv, valueOf_finite, valueOf_finite, hvalue]
      exact isRounded_packed (by positivity) hy hstands

theorem isRounded_add (hx : x.isFinite = true) (hy : y.isFinite = true) :
    IsRounded (value x + value y) (x + y) :=
  isRounded_packed_add (finite_unpacked hx) (finite_unpacked hy)

theorem isRounded_sub (hx : x.isFinite = true) (hy : y.isFinite = true) :
    IsRounded (value x - value y) (x - y) :=
  isRounded_packed_sub (finite_unpacked hx) (finite_unpacked hy)

theorem isRounded_mul (hx : x.isFinite = true) (hy : y.isFinite = true) :
    IsRounded (value x * value y) (x * y) :=
  isRounded_packed_mul (finite_unpacked hx) (finite_unpacked hy)

theorem isRounded_div (hx : x.isFinite = true) (hy : y.isFinite = true) (hne : value y ≠ 0) :
    IsRounded (value x / value y) (x / y) := by
  change IsRounded (valueOf (unpacked x) / valueOf (unpacked y))
    (packed (.div .binary64 (unpacked x) (unpacked y)))
  have hfy := finite_unpacked hy
  unfold value at hne
  generalize unpacked y = v at hfy hne
  cases hfy with
  | zero s => exact absurd rfl hne
  | finite s hm he => exact isRounded_packed_div (finite_unpacked hx) hm.pos

theorem signedRounds_natCast {n : ℕ} (h : n < 2 ^ 53) : SignedRounds n n := by
  have hself := rounds_self (e := 0) h (by norm_num)
  rw [zpow_zero, mul_one] at hself
  exact .inl ⟨n.cast_nonneg, hself⟩

theorem natCast_lt_beyond {n : ℕ} (h : n < 2 ^ 53) : |(n : ℚ)| < beyond := by
  have hn : (n : ℚ) < 2 ^ 53 := by exact_mod_cast h
  have hpow : (1 : ℚ) ≤ 2 ^ (971 : ℤ) := one_le_zpow₀ one_le_two (by norm_num)
  rw [abs_of_nonneg n.cast_nonneg]
  exact hn.trans_le (le_mul_of_one_le_right (by positivity) hpow)

theorem value_of_isRounded_natCast {n : ℕ} (hx : IsRounded n x) (h : n < 2 ^ 53) :
    value x = n := by
  obtain ⟨v, hv, hxv⟩ := hx.value_eq
  have hself := signedRounds_natCast h
  rw [hxv, le_antisymm (hv.mono hself le_rfl) (hself.mono hv le_rfl),
    capped_eq (natCast_lt_beyond h)]

theorem ofNat_of_lt {n : ℕ} (h : n < 2 ^ 53) :
    Float.ofNat n = n.toUInt64.toFloat * Float.ofBits 0x3FF0000000000000 := by
  change Float.ofScientific n false 0 = _
  unfold Float.ofScientific
  rw [dif_pos ⟨h, by omega⟩]
  rfl

theorem ofNat_of_le {n : ℕ} (h : 2 ^ 53 ≤ n) :
    Float.ofNat n = packed (.ofScientific .binary64 n 0) := by
  change Float.ofScientific n false 0 = _
  unfold Float.ofScientific
  rw [dif_neg (by omega)]
  rfl

theorem value_one : value (Float.ofBits 0x3FF0000000000000) = 1 := by
  have hone : unpacked (Float.ofBits 0x3FF0000000000000) =
      .finite .positive (2 ^ 52) (-52) (by norm_num) := by
    rfl
  rw [value, hone]
  norm_num [factor]

theorem isRounded_toFloat {n : ℕ} (h : n < 2 ^ 53) : IsRounded n n.toUInt64.toFloat := by
  have hnormal : IsRounded _ n.toUInt64.toFloat :=
    isRounded_normalize (n.toUInt64.toNat : ℤ) 0 .positive
  have hcast : n.toUInt64.toNat = n := by
    rw [Nat.toUInt64, UInt64.toNat_ofNat']
    exact Nat.mod_eq_of_lt (by omega)
  simpa [hcast] using hnormal

/-- A natural number, however large. -/
theorem isRounded_ofNat (n : ℕ) : IsRounded n (Float.ofNat n) := by
  rcases lt_or_ge n (2 ^ 53) with h | h
  · have hn := isRounded_toFloat h
    have hvalue := value_of_isRounded_natCast hn h
    have hfinite : n.toUInt64.toFloat.isFinite = true :=
      isFinite_of_value hn.isNaN (hvalue ▸ natCast_lt_beyond h)
    have hmul := isRounded_mul (y := Float.ofBits 0x3FF0000000000000) hfinite rfl
    rwa [hvalue, value_one, mul_one, ← ofNat_of_lt h] at hmul
  · have hpos : n ≠ 0 := by omega
    have hmul : UnpackedFloat.ofScientific .binary64 n 0 =
        Float.Model.UnpackedFloat.roundWithAccuracy .binary64 .positive (n <<< 53 * 1) (-53)
          .exact := by
      have hexponent : (0 : ℤ) ≤ 2 ^ Format.binary64.exponentBits := by positivity
      unfold Float.Model.UnpackedFloat.ofScientific
      rw [dif_neg hpos, if_neg (by norm_num), if_neg (by omega), if_pos le_rfl]
      rfl
    have hlog := log2_shiftLeft (Nat.pos_of_ne_zero hpos) 53
    obtain ⟨y, hy, hstands⟩ := stands_roundWithAccuracy .positive
      (describes_exact (n <<< 53 * 1)) (e := -53) (.inl (by rw [mul_one]; omega))
    have hvalue : ((n <<< 53 * 1 : ℕ) : ℚ) * 2 ^ (-53 : ℤ) = n := by
      have hexponent : (0 : ℤ) - (53 : ℕ) = -53 := by norm_num
      have hshift := shiftLeft_mul_zpow n 53 0
      rw [hexponent, zpow_zero, mul_one] at hshift
      rw [mul_one]
      exact hshift
    have hrounded := isRounded_packed n.cast_nonneg (hvalue ▸ hy) hstands
    rw [factor, one_mul] at hrounded
    rw [ofNat_of_le h, hmul]
    exact hrounded

end Operations

end ParameterScan.Double
