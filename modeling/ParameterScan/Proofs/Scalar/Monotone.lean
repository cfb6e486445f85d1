import ParameterScan.Proofs.Scalar.Arithmetic

/-!
# Doubles keep the order of exact results

The operations on finite doubles round exact results, and rounding is monotone. What remains are the
infinities: an operation on an infinity gives an infinity or a `NaN`, never a finite number, except
for a quotient by one. Each law is read off the cases of the unpacked arguments.
-/
namespace ParameterScan.Double

open Float.Model (UnpackedFloat)
open Float.Model.UnpackedFloat (Sign)

variable {u v : UnpackedFloat} {x y z : Float}

theorem nonneg_iff : 0 ≤ x ↔ x.isNaN = false ∧ 0 ≤ value x := by
  constructor
  · intro h
    exact ⟨Scalar.Ordered.isNaN_right h, value_zero ▸ value_le_of_le h⟩
  · rintro ⟨hx, h⟩
    exact (le_iff_value rfl hx).mpr (value_zero.le.trans h)

theorem isRounded_zero_zero : IsRounded 0 0 := by
  simpa only [value_zero] using isRounded_value (x := 0) rfl

theorem IsRounded.nonneg {q : ℚ} (hx : IsRounded q x) (h : 0 ≤ q) : 0 ≤ x :=
  isRounded_zero_zero.le hx h

theorem IsRounded.nonpos {q : ℚ} (hx : IsRounded q x) (h : q ≤ 0) : x ≤ 0 :=
  hx.le isRounded_zero_zero h

/-- A double from zero up; the zero may be the negative one. -/
inductive NonNeg : UnpackedFloat → Prop
  | infinity : NonNeg (.infinity .positive)
  | zero (s : Sign) : NonNeg (.zero s)
  | finite {m : ℕ} {e : ℤ} (h : Canonical m e) (he : e ≤ 971) :
      NonNeg (.finite .positive m e h.pos)

theorem nonNeg_unpacked (h : 0 ≤ x) : NonNeg (unpacked x) := by
  obtain ⟨hx, hvalue⟩ := nonneg_iff.mp h
  have hproper := proper_unpacked hx
  have hbeyond := beyond_pos
  unfold value at hvalue
  generalize unpacked x = u at hproper hvalue
  cases hproper with
  | infinity s =>
      cases s with
      | positive => exact .infinity
      | negative =>
          simp only [valueOf, factor] at hvalue
          linarith
  | zero s => exact .zero s
  | finite s hm he =>
      have hpos := hm.magnitude_pos
      cases s with
      | positive => exact .finite hm he
      | negative =>
          simp only [valueOf, factor] at hvalue
          linarith

theorem value_infinity : value (packed (.infinity .positive)) = beyond := by
  rw [value, unpacked_packed_infinity]
  exact one_mul beyond

theorem infinity_pos : 0 < packed (.infinity .positive) := by
  rw [lt_iff_value rfl rfl, value_zero, value_infinity]
  exact beyond_pos

theorem nonneg_infinity : 0 ≤ packed (.infinity .positive) :=
  Scalar.Ordered.le_of_lt infinity_pos

theorem infinity_nonpos : packed (.infinity .negative) ≤ 0 := by decide +kernel

theorem nonneg_zero (s : Sign) : 0 ≤ packed (.zero s) :=
  (isRounded_zero s).nonneg le_rfl

theorem not_isFinite_infinity (s : Sign) : (packed (.infinity s)).isFinite = false := by
  cases s <;> rfl

theorem isNaN_notANumber : (packed .notANumber).isNaN = true := rfl

theorem not_isFinite_notANumber : (packed .notANumber).isFinite = false := rfl

theorem nonneg_packed_mul (hu : NonNeg u) (hv : NonNeg v)
    (h : (packed (.mul .binary64 u v)).isNaN = false) : 0 ≤ packed (.mul .binary64 u v) := by
  cases hu with
  | infinity =>
      cases hv with
      | infinity => exact nonneg_infinity
      | zero s => exact nomatch isNaN_notANumber.symm.trans h
      | finite hn hf => exact nonneg_infinity
  | zero s =>
      cases hv with
      | infinity => exact nomatch isNaN_notANumber.symm.trans h
      | zero t => exact nonneg_zero _
      | finite hn hf => exact nonneg_zero _
  | finite hm he =>
      cases hv with
      | infinity => exact nonneg_infinity
      | zero t => exact nonneg_zero _
      | finite hn hf =>
          have hproduct := isRounded_packed_mul (.finite .positive hm he) (.finite .positive hn hf)
          refine hproduct.nonneg ?_
          have hpos := hm.magnitude_pos
          have hpos' := hn.magnitude_pos
          simp only [valueOf, factor, one_mul]
          positivity

theorem nonneg_packed_div (hu : NonNeg u) (hv : NonNeg v) (hpos : 0 < valueOf v)
    (h : (packed (.div .binary64 u v)).isNaN = false) : 0 ≤ packed (.div .binary64 u v) := by
  cases hv with
  | zero t => exact absurd hpos (lt_irrefl 0)
  | infinity =>
      cases hu with
      | infinity => exact nomatch isNaN_notANumber.symm.trans h
      | zero s => exact nonneg_zero _
      | finite hm he => exact nonneg_zero _
  | finite hn hf =>
      cases hu with
      | infinity => exact nonneg_infinity
      | zero s => exact nonneg_zero _
      | finite hm he =>
          refine (isRounded_packed_div (.finite .positive hm he) hn.pos).nonneg ?_
          have hpos := hm.magnitude_pos
          have hpos' := hn.magnitude_pos
          simp only [valueOf, factor, one_mul]
          positivity

/-- A quotient by a finite number other than zero is rounded, or it is infinite with the sign of the
divisor. -/
theorem div_of_nonneg (hx : 0 ≤ x) (hy : y.isFinite = true) (hne : value y ≠ 0) :
    IsRounded (value x / value y) (x / y) ∨
      ∃ s, 0 < factor s * value y ∧ x / y = packed (.infinity s) := by
  by_cases hfinite : x.isFinite = true
  · exact .inl (isRounded_div hfinite hy hne)
  · have hnonneg := nonNeg_unpacked hx
    have hfy := finite_unpacked hy
    change ¬(unpacked x).isFinite = true at hfinite
    change _ ∨ ∃ s, _ ∧ packed (.div .binary64 (unpacked x) (unpacked y)) = _
    unfold value at hne ⊢
    generalize unpacked x = u at hfinite hnonneg
    generalize unpacked y = v at hfy hne
    cases hnonneg with
    | zero s => exact absurd rfl hfinite
    | finite hm he => exact absurd rfl hfinite
    | infinity =>
        cases hfy with
        | zero s => exact absurd rfl hne
        | finite s hm he =>
            have hpos := hm.magnitude_pos
            refine .inr ⟨s, ?_, by cases s <;> rfl⟩
            cases s <;> simpa [valueOf, factor] using hpos

theorem div_nonneg_of_pos (hx : 0 ≤ x) (hy : y.isFinite = true) (hpos : 0 < y) : 0 ≤ x / y := by
  have hvalue := (lt_iff_value rfl (isNaN_of_isFinite hy)).mp hpos
  rw [value_zero] at hvalue
  rcases div_of_nonneg hx hy hvalue.ne' with hrounded | ⟨s, hs, heq⟩
  · exact hrounded.nonneg (div_nonneg (nonneg_iff.mp hx).2 hvalue.le)
  · cases s with
    | positive => exact heq ▸ nonneg_infinity
    | negative =>
        simp only [factor] at hs
        linarith

theorem div_nonpos_of_neg (hx : 0 ≤ x) (hy : y.isFinite = true) (hneg : y < 0) : x / y ≤ 0 := by
  have hvalue := (lt_iff_value (isNaN_of_isFinite hy) rfl).mp hneg
  rw [value_zero] at hvalue
  rcases div_of_nonneg hx hy hvalue.ne with hrounded | ⟨s, hs, heq⟩
  · exact hrounded.nonpos (div_nonpos_of_nonneg_of_nonpos (nonneg_iff.mp hx).2 hvalue.le)
  · cases s with
    | negative => exact heq ▸ infinity_nonpos
    | positive =>
        simp only [factor] at hs
        linarith

theorem isFinite_of_packed (h : (packed u).isFinite = true) : u.isFinite = true := by
  cases u with
  | notANumber => exact nomatch not_isFinite_notANumber.symm.trans h
  | infinity s => exact nomatch (not_isFinite_infinity s).symm.trans h
  | zero s => rfl
  | finite s m e hm => rfl

theorem isFinite_of_packed_add (h : (packed (.add .binary64 u v)).isFinite = true) :
    u.isFinite = true ∧ v.isFinite = true := by
  have hsum := isFinite_of_packed h
  cases u with
  | notANumber => cases hsum
  | infinity s =>
      cases v with
      | infinity t => cases s <;> cases t <;> cases hsum
      | _ => cases hsum
  | zero s =>
      cases v with
      | notANumber => cases hsum
      | infinity t => cases hsum
      | zero t => exact ⟨rfl, rfl⟩
      | finite t n f hn => exact ⟨rfl, rfl⟩
  | finite s m e hm =>
      cases v with
      | notANumber => cases hsum
      | infinity t => cases hsum
      | zero t => exact ⟨rfl, rfl⟩
      | finite t n f hn => exact ⟨rfl, rfl⟩

theorem isFinite_of_packed_mul (h : (packed (.mul .binary64 u v)).isFinite = true) :
    u.isFinite = true ∧ v.isFinite = true := by
  have hproduct := isFinite_of_packed h
  cases u with
  | notANumber => cases hproduct
  | infinity s => cases v <;> cases hproduct
  | zero s =>
      cases v with
      | notANumber => cases hproduct
      | infinity t => cases hproduct
      | zero t => exact ⟨rfl, rfl⟩
      | finite t n f hn => exact ⟨rfl, rfl⟩
  | finite s m e hm =>
      cases v with
      | notANumber => cases hproduct
      | infinity t => cases hproduct
      | zero t => exact ⟨rfl, rfl⟩
      | finite t n f hn => exact ⟨rfl, rfl⟩

theorem isNaN_of_packed_add (h : (packed (.add .binary64 u v)).isNaN = false) :
    v.isNaN = false := by
  cases v with
  | notANumber =>
      have hsum : UnpackedFloat.add .binary64 u .notANumber = .notANumber := by cases u <;> rfl
      rw [hsum] at h
      exact nomatch isNaN_notANumber.symm.trans h
  | _ => rfl

theorem isNaN_of_packed_mul (h : (packed (.mul .binary64 u v)).isNaN = false) :
    u.isNaN = false := by
  cases u with
  | notANumber => exact nomatch isNaN_notANumber.symm.trans h
  | _ => rfl

/-- A finite number and one from zero up. -/
theorem le_packed_add (hx : x.isFinite = true) (hv : NonNeg v) :
    x ≤ packed (.add .binary64 (unpacked x) v) := by
  have hfinite := finite_unpacked hx
  cases hv with
  | infinity =>
      have hsum : UnpackedFloat.add .binary64 (unpacked x) (.infinity .positive) =
          .infinity .positive := by
        generalize unpacked x = u at hfinite
        cases hfinite <;> rfl
      rw [hsum, le_iff_value (isNaN_of_isFinite hx) rfl, value_infinity]
      exact (abs_lt.mp (abs_value_lt hx)).2.le
  | zero s =>
      refine (isRounded_value hx).le (isRounded_packed_add hfinite (.zero s)) ?_
      simp [value]
  | finite hm he =>
      have hpos := hm.magnitude_pos
      refine (isRounded_value hx).le (isRounded_packed_add hfinite (.finite .positive hm he)) ?_
      simp only [value, valueOf_finite, factor, one_mul]
      linarith

theorem nonNeg_ofNat (n : ℕ) : NonNeg (unpacked (Float.ofNat n)) :=
  nonNeg_unpacked ((isRounded_ofNat n).nonneg n.cast_nonneg)

theorem value_natural {n : ℕ} (h : n < 2 ^ 53) : value (Float.ofNat n) = n :=
  value_of_isRounded_natCast (isRounded_ofNat n) h

theorem isFinite_natural {n : ℕ} (h : n < 2 ^ 53) : (Float.ofNat n).isFinite = true :=
  isFinite_of_value (isRounded_ofNat n).isNaN (value_natural h ▸ natCast_lt_beyond h)

theorem one_pos : (0 : Float) < Float.ofNat 1 := by
  rw [lt_iff_value rfl (isRounded_ofNat 1).isNaN, value_zero, value_natural (by norm_num)]
  norm_num

/-- The number of gaps between two points or more. -/
theorem gaps_pos (n : ℕ) : (0 : Float) < Float.ofNat (n + 2) - Float.ofNat 1 := by
  have htwo : (2 : ℚ) ≤ value (Float.ofNat (n + 2)) := by
    have hle := (isRounded_ofNat 2).mono (isRounded_ofNat (n + 2)) (by norm_num)
    rwa [value_natural (by norm_num), Nat.cast_ofNat] at hle
  by_cases h : (Float.ofNat (n + 2)).isFinite = true
  · have hsub := isRounded_sub h (isFinite_natural (n := 1) (by norm_num))
    refine Scalar.lt_of_lt_of_le one_pos ((isRounded_ofNat 1).le hsub ?_)
    rw [value_natural (n := 1) (by norm_num), Nat.cast_one]
    linarith
  · change 0 < packed (.sub .binary64 (unpacked (Float.ofNat (n + 2))) (unpacked (Float.ofNat 1)))
    change ¬(unpacked (Float.ofNat (n + 2))).isFinite = true at h
    have hnonneg := nonNeg_ofNat (n + 2)
    generalize unpacked (Float.ofNat (n + 2)) = u at h hnonneg
    cases hnonneg with
    | infinity => exact infinity_pos
    | zero s => exact absurd rfl h
    | finite hm he => exact absurd rfl h

/-- A result is positive when there is a positive number that it does not fall below. -/
theorem IsRounded.pos {q : ℚ} {m : ℕ} {e : ℤ} (hx : IsRounded q x) (h : Canonical m e)
    (he : e ≤ 971) (hle : m * 2 ^ e ≤ q) : 0 < x := by
  have hrounded := isRounded_packed (s := .positive) h.magnitude_pos.le h.rounds (.finite h)
  have hmono := hrounded.mono hx (by simpa [factor] using hle)
  have hvalue := (value_packed (s := .positive) (.finite h)).2
  rw [hvalue] at hmono
  rw [lt_iff_value rfl hx.isNaN, value_zero]
  rw [capped_eq] at hmono
  · simpa [factor] using h.magnitude_pos.trans_le (by simpa [factor] using hmono)
  · rw [factor, one_mul, abs_of_pos h.magnitude_pos]
    exact h.magnitude_lt he

/-- The root of a mantissa that was shifted far enough has all its bits. -/
theorem le_sqrt_shiftLeft {m : ℕ} {e t : ℤ} (h : Canonical m e)
    (ht : t = min (e / 2) (max ((m.log2 + 1 + e + 1) / 2 - 53) (-1074))) :
    2 ^ 52 ≤ (m <<< (e - 2 * t).toNat).sqrt := by
  have hleast := h.least
  have hlog := log2_shiftLeft h.pos (e - 2 * t).toNat
  have hne : m <<< (e - 2 * t).toNat ≠ 0 := by
    rw [Nat.shiftLeft_eq]
    have := h.pos
    positivity
  rw [Nat.le_sqrt]
  calc 2 ^ 52 * 2 ^ 52 = 2 ^ 104 := by norm_num
    _ ≤ m <<< (e - 2 * t).toNat := (Nat.le_log2 hne).mp (by omega)

/-- What the accuracy of a root says is true of some magnitude from the root up. -/
theorem exists_describes (root rem : ℕ) : ∃ r : ℚ, root ≤ r ∧
    Describes (.ofMantissaAndAccuracy root
      (if rem = 0 then .exact else .inexact (if rem ≤ root then .lt else .gt))) r := by
  split_ifs
  · exact ⟨root, le_rfl, describes_exact root⟩
  · refine ⟨root + 1 / 4, by linarith, ?_⟩
    change (root : ℚ) < root + 1 / 4 ∧ (root : ℚ) + 1 / 4 < root + 1 / 2
    constructor <;> linarith
  · refine ⟨root + 3 / 4, by linarith, ?_⟩
    change (root : ℚ) + 1 / 2 < root + 3 / 4 ∧ (root : ℚ) + 3 / 4 < root + 1
    constructor <;> linarith

theorem packed_sqrt_pos {m : ℕ} {e : ℤ} (h : Canonical m e) :
    0 < packed (.sqrt .binary64 (.finite .positive m e h.pos)) := by
  obtain ⟨t, ht⟩ : ∃ t, t = min (e / 2) (max ((m.log2 + 1 + e + 1) / 2 - 53) (-1074)) := ⟨_, rfl⟩
  have hroot := le_sqrt_shiftLeft h ht
  have hleast := h.least
  obtain ⟨root, hroot_eq⟩ : ∃ root, root = (m <<< (e - 2 * t).toNat).sqrt := ⟨_, rfl⟩
  have hsqrt : UnpackedFloat.sqrt .binary64 (.finite .positive m e h.pos) =
      Float.Model.UnpackedFloat.roundWithAccuracy .binary64 .positive root t
        (if m <<< (e - 2 * t).toNat - root * root = 0 then .exact else
          .inexact (if m <<< (e - 2 * t).toNat - root * root ≤ root then .lt else .gt)) := by
    rw [hroot_eq, ht]
    rfl
  rw [← hroot_eq] at hroot
  obtain ⟨r, hle, hr⟩ := exists_describes root (m <<< (e - 2 * t).toNat - root * root)
  obtain ⟨y, hy, hstands⟩ := stands_roundWithAccuracy .positive hr
    (.inl ((Nat.le_log2 (by omega)).mpr hroot))
  rw [hsqrt]
  have hrange : Canonical (2 ^ 52) (-1074) := ⟨by norm_num, by norm_num, le_rfl, .inl rfl⟩
  have hroot_le : ((2 ^ 52 : ℕ) : ℚ) ≤ r := le_trans (by exact_mod_cast hroot) hle
  have hpow := two_zpow_le (show -1074 ≤ t by omega)
  refine (isRounded_packed (by positivity) hy hstands).pos hrange (by norm_num) ?_
  rw [factor, one_mul]
  gcongr

theorem sqrt_pos (h : 0 < x) : 0 < x.sqrt := by
  change 0 < packed (.sqrt .binary64 (unpacked x))
  have hnonneg := nonNeg_unpacked (Scalar.Ordered.le_of_lt h)
  have hnan := Scalar.Ordered.isNaN_right (Scalar.Ordered.le_of_lt h)
  have hvalue := (lt_iff_value rfl hnan).mp h
  rw [value_zero, value] at hvalue
  generalize unpacked x = u at hnonneg hvalue
  cases hnonneg with
  | infinity => exact infinity_pos
  | zero s => exact absurd hvalue (lt_irrefl 0)
  | finite hm he => exact packed_sqrt_pos hm

instance : Scalar.Monotone Float where
  isFinite_of_between {a x b} ha hb hax hxb := by
    have hlower := (abs_lt.mp (abs_value_lt ha)).1
    have hupper := (abs_lt.mp (abs_value_lt hb)).2
    exact isFinite_of_value (Scalar.Ordered.isNaN_left hxb)
      (abs_lt.mpr ⟨hlower.trans_le (value_le_of_le hax), (value_le_of_le hxb).trans_lt hupper⟩)
  isFinite_of_add h := isFinite_of_packed_add h
  isFinite_of_mul h := isFinite_of_packed_mul h
  isNaN_of_add h := isNaN_of_packed_add h
  isNaN_of_mul h := isNaN_of_packed_mul h
  isFinite_zero := rfl
  zero_lt_one := one_pos
  sqrt_pos := sqrt_pos
  ofNat_le h := (isRounded_ofNat _).le (isRounded_ofNat _) (by exact_mod_cast h)
  gaps_pos := gaps_pos
  sub_nonneg ha hb h := (isRounded_sub hb ha).nonneg (sub_nonneg.mpr (value_le_of_le h))
  div_nonneg ha hb h := by
    have hnan := Scalar.Ordered.isNaN_right (Scalar.Ordered.le_of_lt hb)
    have hvalue := (lt_iff_value rfl hnan).mp hb
    exact nonneg_packed_div (nonNeg_unpacked ha)
      (nonNeg_unpacked (Scalar.Ordered.le_of_lt hb)) (value_zero ▸ hvalue) h
  mul_nonneg ha hb h := nonneg_packed_mul (nonNeg_unpacked ha) (nonNeg_unpacked hb) h
  le_add ha hb := le_packed_add ha (nonNeg_unpacked hb)
  add_le_add ha hb hc h :=
    (isRounded_add ha hb).le (isRounded_add ha hc) (by linarith [value_le_of_le h])
  mul_le_mul hnonneg ha hb hc h :=
    (isRounded_mul ha hb).le (isRounded_mul ha hc)
      (mul_le_mul_of_nonneg_left (value_le_of_le h) (nonneg_iff.mp hnonneg).2)

end ParameterScan.Double
