import Mathlib
import ParameterScan.Proofs.Scalar.Order
import ParameterScan.Scalar.Double

/-!
# The order of doubles

Doubles that are not `NaN` are ordered by their rank: a class (negative infinity, negative, zero,
positive, infinity), then an exponent, then a mantissa, each with the sign. The comparisons of
binary64 are those of ranks, and a double is settled by its rank unless it is a zero. The operations
are looked at only where an argument is a zero; how they round is of no interest here.
-/
namespace ParameterScan.Double

open Float.Model (UnpackedFloat Format)
open Float.Model.UnpackedFloat (Sign unpackSign unpackExponent unpackMantissa)

/-- A class of magnitude, an exponent and a mantissa, each with the sign. -/
structure Rank where
  kind : Int
  exponent : Int
  mantissa : Int
  deriving DecidableEq

/-- The rank of a number. A `NaN` has one too, which says nothing. -/
def rank : UnpackedFloat → Rank
  | .infinity .negative => ⟨-2, 0, 0⟩
  | .finite .negative m e _ => ⟨-1, -e, -m⟩
  | .finite .positive m e _ => ⟨1, e, m⟩
  | .infinity .positive => ⟨2, 0, 0⟩
  | _ => ⟨0, 0, 0⟩

/-- The first difference counts. -/
def Rank.Below (r s : Rank) : Prop :=
  r.kind < s.kind ∨ r.kind = s.kind ∧
    (r.exponent < s.exponent ∨ r.exponent = s.exponent ∧ r.mantissa < s.mantissa)

theorem then_compare_eq_lt (e f : Int) (m n : Nat) :
    (compare e f).then (compare m n) = .lt ↔ e < f ∨ e = f ∧ m < n := by
  rw [Ordering.then_eq_lt, Int.compare_eq_lt, Int.compare_eq_eq, Nat.compare_eq_lt]

theorem then_compare_eq_gt (e f : Int) (m n : Nat) :
    (compare e f).then (compare m n) = .gt ↔ f < e ∨ e = f ∧ n < m := by
  rw [Ordering.then_eq_gt, Int.compare_eq_gt, Int.compare_eq_eq, Nat.compare_eq_gt]

/-- Numbers compare as their ranks. -/
theorem compare_eq {a b : UnpackedFloat} (ha : a.isNaN = false) (hb : b.isNaN = false) :
    ∃ o, a.compare b = some o ∧ (o = .lt ↔ (rank a).Below (rank b)) ∧
      (o = .gt ↔ (rank b).Below (rank a)) := by
  cases a with
  | notANumber => cases ha
  | infinity s =>
      cases b with
      | notANumber => cases hb
      | infinity t =>
          cases s <;> cases t <;> simp [UnpackedFloat.compare, rank, Rank.Below, compare]
      | zero t => cases s <;> cases t <;> simp [UnpackedFloat.compare, rank, Rank.Below]
      | finite t m e h => cases s <;> cases t <;> simp [UnpackedFloat.compare, rank, Rank.Below]
  | zero s =>
      cases b with
      | notANumber => cases hb
      | infinity t => cases s <;> cases t <;> simp [UnpackedFloat.compare, rank, Rank.Below]
      | zero t => cases s <;> cases t <;> simp [UnpackedFloat.compare, rank, Rank.Below]
      | finite t m e h => cases s <;> cases t <;> simp [UnpackedFloat.compare, rank, Rank.Below]
  | finite s m e h =>
      cases b with
      | notANumber => cases hb
      | infinity t => cases s <;> cases t <;> simp [UnpackedFloat.compare, rank, Rank.Below]
      | zero t => cases s <;> cases t <;> simp [UnpackedFloat.compare, rank, Rank.Below]
      | finite t n f h' =>
          cases s <;> cases t <;>
            simp [UnpackedFloat.compare, rank, Rank.Below, then_compare_eq_lt, then_compare_eq_gt]
          all_goals omega

theorem compare_eq_none {a b : UnpackedFloat} (h : a.isNaN = true ∨ b.isNaN = true) :
    a.compare b = none := by
  cases a <;> cases b <;> simp_all [UnpackedFloat.compare, UnpackedFloat.isNaN]

/-- The number behind a double. -/
def unpacked (x : Float) : UnpackedFloat := x.toModel.unpack

theorem isNaN_unpacked (x : Float) : (unpacked x).isNaN = x.isNaN := rfl

theorem lt_iff_compare {x y : Float} :
    x < y ↔ (unpacked x).compare (unpacked y) = some .lt := by
  change decide (x.toModel.lt y.toModel = true) = true ↔ _
  rw [decide_eq_true_eq]
  change ((unpacked x).compare (unpacked y) == some .lt) = true ↔ _
  rw [beq_iff_eq]

theorem le_iff_compare {x y : Float} :
    x ≤ y ↔ ∃ o, (unpacked x).compare (unpacked y) = some o ∧ o ≠ .gt := by
  change decide (x.toModel.le y.toModel = true) = true ↔ _
  rw [decide_eq_true_eq]
  change ((unpacked x).compare (unpacked y)).any (·.isLE) = true ↔ _
  cases (unpacked x).compare (unpacked y) with
  | none => simp
  | some o => cases o <;> simp

theorem lt_iff {x y : Float} :
    x < y ↔ x.isNaN = false ∧ y.isNaN = false ∧ (rank (unpacked x)).Below (rank (unpacked y)) := by
  rw [lt_iff_compare]
  cases hx : x.isNaN with
  | true => simp [compare_eq_none (.inl ((isNaN_unpacked x).trans hx))]
  | false =>
      cases hy : y.isNaN with
      | true => simp [compare_eq_none (.inr ((isNaN_unpacked y).trans hy))]
      | false =>
          obtain ⟨o, ho, hlt, -⟩ := compare_eq ((isNaN_unpacked x).trans hx)
            ((isNaN_unpacked y).trans hy)
          simp [ho, hlt]

theorem le_iff {x y : Float} :
    x ≤ y ↔ x.isNaN = false ∧ y.isNaN = false ∧
      ¬(rank (unpacked y)).Below (rank (unpacked x)) := by
  rw [le_iff_compare]
  cases hx : x.isNaN with
  | true => simp [compare_eq_none (.inl ((isNaN_unpacked x).trans hx))]
  | false =>
      cases hy : y.isNaN with
      | true => simp [compare_eq_none (.inr ((isNaN_unpacked y).trans hy))]
      | false =>
          obtain ⟨o, ho, -, hgt⟩ := compare_eq ((isNaN_unpacked x).trans hx)
            ((isNaN_unpacked y).trans hy)
          simp [ho, hgt]

/-- Two numbers are equal when they lie below each other, as the two zeros do. -/
theorem beq_iff {x y : Float} : (x == y) = true ↔ x ≤ y ∧ y ≤ x := by
  change ((unpacked x).compare (unpacked y) == some .eq) = true ↔ _
  rw [beq_iff_eq, le_iff, le_iff]
  cases hx : x.isNaN with
  | true => simp [compare_eq_none (.inl ((isNaN_unpacked x).trans hx))]
  | false =>
      cases hy : y.isNaN with
      | true => simp [compare_eq_none (.inr ((isNaN_unpacked y).trans hy))]
      | false =>
          obtain ⟨o, ho, hlt, hgt⟩ := compare_eq ((isNaN_unpacked x).trans hx)
            ((isNaN_unpacked y).trans hy)
          rw [ho, ← hlt, ← hgt]
          cases o <;> simp

theorem isNaN_of_isFinite {x : Float} (h : x.isFinite = true) : x.isNaN = false := by
  change (unpacked x).isFinite = true at h
  change (unpacked x).isNaN = false
  cases hx : unpacked x <;> simp_all [UnpackedFloat.isFinite, UnpackedFloat.isNaN]

instance : Scalar.Ordered Float where
  le_of_lt h := by
    obtain ⟨ha, hb, hlt⟩ := lt_iff.mp h
    refine le_iff.mpr ⟨ha, hb, ?_⟩
    unfold Rank.Below at *
    omega
  le_trans hab hbc := by
    obtain ⟨ha, _, hab⟩ := le_iff.mp hab
    obtain ⟨_, hc, hbc⟩ := le_iff.mp hbc
    refine le_iff.mpr ⟨ha, hc, ?_⟩
    unfold Rank.Below at *
    omega
  not_lt_of_le hab hba := (le_iff.mp hab).2.2 (lt_iff.mp hba).2.2
  le_of_not_lt ha hb h := le_iff.mpr ⟨hb, ha, fun hlt => h (lt_iff.mpr ⟨ha, hb, hlt⟩)⟩
  isNaN_left h := (le_iff.mp h).1
  isNaN_right h := (le_iff.mp h).2.1
  isNaN_of_isFinite := isNaN_of_isFinite
  isNaN_infinity := rfl
  isFinite_infinity := rfl

/-- The bits of a double. -/
abbrev Bits := BitVec Format.binary64.numBits

def exponentOf (b : Bits) : Nat := (unpackExponent b).toNat
def mantissaOf (b : Bits) : Nat := (unpackMantissa b).toNat
def signOf (b : Bits) : Sign := Sign.ofBitVec (unpackSign b)

theorem fields_inj {b c : Bits} (hs : signOf b = signOf c) (he : exponentOf b = exponentOf c)
    (hm : mantissaOf b = mantissaOf c) : b = c := by
  have hsign : (unpackSign b).toNat = (unpackSign c).toNat := by
    have hb := (unpackSign b).isLt
    have hc := (unpackSign c).isLt
    unfold signOf Sign.ofBitVec at hs
    split_ifs at hs with h0 h1 h1
    all_goals simp_all [BitVec.toNat_eq]
    omega
  simp only [unpackSign, exponentOf, unpackExponent, mantissaOf, unpackMantissa, Nat.reduceAdd,
    Nat.reduceSub, Nat.add_one_sub_one, Nat.sub_zero, BitVec.extractLsb, BitVec.cast_eq,
    BitVec.extractLsb'_toNat, Nat.shiftRight_eq_div_pow, Nat.reducePow, Nat.pow_one, Nat.pow_zero,
    Nat.div_one] at hsign he hm
  apply BitVec.eq_of_toNat_eq
  have hb := b.isLt
  have hc := c.isLt
  simp only [Format.numBits] at hb hc
  omega

/-- How a number is read off the three fields of its bits. -/
inductive Decoded (b : Bits) : UnpackedFloat → Prop
  | infinity {s : Sign} : signOf b = s → exponentOf b = 2047 → mantissaOf b = 0 →
      Decoded b (.infinity s)
  | notANumber : unpackExponent b = -1#_ → unpackMantissa b ≠ 0#_ → Decoded b .notANumber
  | zero {s : Sign} : signOf b = s → exponentOf b = 0 → mantissaOf b = 0 → Decoded b (.zero s)
  | finite {s : Sign} {m : Nat} {e : Int} (h : 0 < m) : signOf b = s →
      (exponentOf b = 0 ∧ m = mantissaOf b ∧ e = -1074 ∨
        0 < exponentOf b ∧ m = 2 ^ 52 + mantissaOf b ∧ e = exponentOf b - 1075) →
      Decoded b (.finite s m e h)

theorem mantissaOf_lt (b : Bits) : mantissaOf b < 2 ^ 52 := (unpackMantissa b).isLt

theorem decoded (b : Bits) : Decoded b (UnpackedFloat.unpack Format.binary64 b) := by
  unfold UnpackedFloat.unpack
  dsimp only
  split_ifs with he hz h0 hz
  · refine .infinity rfl ?_ ?_
    · simp [exponentOf, he]
    · simp [mantissaOf, hz]
  · exact .notANumber he hz
  · refine .zero rfl ?_ ?_
    · simp [exponentOf, h0]
    · simp [mantissaOf, hz]
  · refine .finite _ rfl (.inl ⟨?_, rfl, ?_⟩)
    · simp [exponentOf, h0]
    · simp [h0, Format.exponentBias]
  · refine .finite _ rfl (.inr ⟨?_, ?_, ?_⟩)
    · rw [exponentOf, BitVec.toNat_pos, BitVec.pos_iff_ne_zero]
      exact h0
    · rw [BitVec.toNat_append]
      exact (Nat.shiftLeft_add_eq_or_of_lt (mantissaOf_lt b) 1).symm
    · simp [exponentOf, Format.exponentBias]

theorem unpack_inj {b c : Bits} (hb : Format.binary64.Valid b) (hc : Format.binary64.Valid c)
    (h : UnpackedFloat.unpack Format.binary64 b = UnpackedFloat.unpack Format.binary64 c) :
    b = c := by
  have db := decoded b
  have dc := decoded c
  have hbm := mantissaOf_lt b
  have hcm := mantissaOf_lt c
  rw [h] at db
  generalize UnpackedFloat.unpack Format.binary64 c = u at db dc
  cases db with
  | infinity hs he hm =>
      cases dc with
      | infinity hs' he' hm' =>
          exact fields_inj (hs.trans hs'.symm) (he.trans he'.symm) (hm.trans hm'.symm)
  | notANumber he hm =>
      cases dc with
      | notANumber he' hm' => exact (hb.eq_packedNaN he hm).trans (hc.eq_packedNaN he' hm').symm
  | zero hs he hm =>
      cases dc with
      | zero hs' he' hm' =>
          exact fields_inj (hs.trans hs'.symm) (he.trans he'.symm) (hm.trans hm'.symm)
  | finite hpos hs hfields =>
      cases dc with
      | finite _ hs' hfields' =>
          refine fields_inj (hs.trans hs'.symm) ?_ ?_ <;> omega

theorem unpacked_inj {x y : Float} (h : unpacked x = unpacked y) : x = y := by
  have hbits := unpack_inj x.toModel.valid y.toModel.valid h
  cases x with
  | ofModel a =>
      cases y with
      | ofModel b =>
          cases a
          cases b
          obtain rfl := UInt64.eq_of_toBitVec_eq hbits
          rfl

/-- The same, or two zeros. -/
def SameUpToZero (u v : UnpackedFloat) : Prop :=
  u = v ∨ (∃ s, u = .zero s) ∧ ∃ t, v = .zero t

theorem SameUpToZero.symm {u v : UnpackedFloat} (h : SameUpToZero u v) : SameUpToZero v u := by
  rcases h with rfl | ⟨hu, hv⟩
  · exact .inl rfl
  · exact .inr ⟨hv, hu⟩

theorem SameUpToZero.trans {u v w : UnpackedFloat} (huv : SameUpToZero u v)
    (hvw : SameUpToZero v w) : SameUpToZero u w := by
  rcases huv with rfl | ⟨hu, hv⟩
  · exact hvw
  · rcases hvw with rfl | ⟨-, hw⟩
    · exact .inr ⟨hu, hv⟩
    · exact .inr ⟨hu, hw⟩

/-- Only the two zeros share a rank. -/
theorem sameUpToZero_of_rank {u v : UnpackedFloat} (hu : u.isNaN = false) (hv : v.isNaN = false)
    (huv : ¬(rank u).Below (rank v)) (hvu : ¬(rank v).Below (rank u)) : SameUpToZero u v := by
  unfold Rank.Below at huv hvu
  have hk : (rank u).kind = (rank v).kind := by omega
  have he : (rank u).exponent = (rank v).exponent := by omega
  have hm : (rank u).mantissa = (rank v).mantissa := by omega
  clear huv hvu
  cases u with
  | notANumber => cases hu
  | infinity s =>
      cases v with
      | notANumber => cases hv
      | infinity t => cases s <;> cases t <;> simp_all [rank, SameUpToZero]
      | zero t => cases s <;> simp_all [rank]
      | finite t n f h => cases s <;> cases t <;> simp_all [rank]
  | zero s =>
      cases v with
      | notANumber => cases hv
      | infinity t => cases t <;> simp_all [rank]
      | zero t => exact .inr ⟨⟨s, rfl⟩, t, rfl⟩
      | finite t n f h => cases t <;> simp_all [rank]
  | finite s m e h =>
      cases v with
      | notANumber => cases hv
      | infinity t => cases s <;> cases t <;> simp_all [rank]
      | zero t => cases s <;> simp_all [rank]
      | finite t n f h' =>
          cases s <;> cases t <;> simp_all [rank, SameUpToZero]

theorem sameUpToZero_of_alike {x y : Float} (h : Scalar.Alike x y) :
    SameUpToZero (unpacked x) (unpacked y) := by
  rcases h with rfl | ⟨hxy, hyx⟩
  · exact .inl rfl
  · obtain ⟨hx, hy, hr⟩ := le_iff.mp hxy
    exact sameUpToZero_of_rank hx hy (le_iff.mp hyx).2.2 hr

theorem rank_zero : rank (unpacked (0 : Float)) = ⟨0, 0, 0⟩ := rfl

theorem eq_of_alike {x y : Float} (h : Scalar.Alike x y) (hx : rank (unpacked x) ≠ ⟨0, 0, 0⟩) :
    x = y := by
  rcases sameUpToZero_of_alike h with h | ⟨⟨s, hs⟩, -⟩
  · exact unpacked_inj h
  · rw [hs] at hx
    exact absurd rfl hx

/-- The double of a number that has been rounded. -/
def packed (u : UnpackedFloat) : Float := .ofModel (.pack u)

theorem alike_packed {u v : UnpackedFloat} (h : SameUpToZero u v) :
    Scalar.Alike (packed u) (packed v) := by
  rcases h with rfl | ⟨⟨s, rfl⟩, t, rfl⟩
  · exact .inl rfl
  · refine .inr ?_
    cases s <;> cases t <;> decide +kernel

theorem add_zero_right (u : UnpackedFloat) (s : Sign) :
    SameUpToZero (UnpackedFloat.add .binary64 u (.zero s)) u := by
  cases u with
  | zero t =>
      refine .inr ⟨?_, t, rfl⟩
      cases s <;> cases t <;> exact ⟨_, rfl⟩
  | _ => exact .inl rfl

theorem add_zero_left (s : Sign) (u : UnpackedFloat) :
    SameUpToZero (UnpackedFloat.add .binary64 (.zero s) u) u := by
  cases u with
  | zero t =>
      refine .inr ⟨?_, t, rfl⟩
      cases s <;> cases t <;> exact ⟨_, rfl⟩
  | _ => exact .inl rfl

theorem sub_zero_right (u : UnpackedFloat) (s : Sign) :
    SameUpToZero (UnpackedFloat.sub .binary64 u (.zero s)) u := by
  cases u with
  | zero t =>
      refine .inr ⟨?_, t, rfl⟩
      cases s <;> cases t <;> exact ⟨_, rfl⟩
  | _ => exact .inl rfl

theorem sub_zero_left (s t : Sign) (u : UnpackedFloat) :
    SameUpToZero (UnpackedFloat.sub .binary64 (.zero s) u)
      (UnpackedFloat.sub .binary64 (.zero t) u) := by
  cases u with
  | zero r => cases s <;> cases t <;> cases r <;> exact .inr ⟨⟨_, rfl⟩, _, rfl⟩
  | _ => exact .inl rfl

theorem mul_zero_right (u : UnpackedFloat) (s t : Sign) :
    SameUpToZero (UnpackedFloat.mul .binary64 u (.zero s))
      (UnpackedFloat.mul .binary64 u (.zero t)) := by
  cases u with
  | zero r => exact .inr ⟨⟨_, rfl⟩, _, rfl⟩
  | finite r m e h => exact .inr ⟨⟨_, rfl⟩, _, rfl⟩
  | _ => exact .inl rfl

theorem mul_zero_left (s t : Sign) (u : UnpackedFloat) :
    SameUpToZero (UnpackedFloat.mul .binary64 (.zero s) u)
      (UnpackedFloat.mul .binary64 (.zero t) u) := by
  cases u with
  | zero r => exact .inr ⟨⟨_, rfl⟩, _, rfl⟩
  | finite r m e h => exact .inr ⟨⟨_, rfl⟩, _, rfl⟩
  | _ => exact .inl rfl

theorem div_zero_left (s t : Sign) (u : UnpackedFloat) :
    SameUpToZero (UnpackedFloat.div .binary64 (.zero s) u)
      (UnpackedFloat.div .binary64 (.zero t) u) := by
  cases u with
  | infinity r => exact .inr ⟨⟨_, rfl⟩, _, rfl⟩
  | finite r m e h => exact .inr ⟨⟨_, rfl⟩, _, rfl⟩
  | _ => exact .inl rfl

/-- An operation that does not tell zeros apart on either side gives the same up to zero. -/
theorem sameUpToZero_of_zeros {op : UnpackedFloat → UnpackedFloat → UnpackedFloat}
    (hleft : ∀ s t u, SameUpToZero (op (.zero s) u) (op (.zero t) u))
    (hright : ∀ u s t, SameUpToZero (op u (.zero s)) (op u (.zero t))) {u v w z : UnpackedFloat}
    (huv : SameUpToZero u v) (hwz : SameUpToZero w z) : SameUpToZero (op u w) (op v z) := by
  have h : SameUpToZero (op u w) (op v w) := by
    rcases huv with rfl | ⟨⟨s, rfl⟩, t, rfl⟩
    · exact .inl rfl
    · exact hleft s t w
  refine h.trans ?_
  rcases hwz with rfl | ⟨⟨s, rfl⟩, t, rfl⟩
  · exact .inl rfl
  · exact hright v s t

instance : Scalar.Congruent Float where
  add hab hcd := alike_packed (sameUpToZero_of_zeros
    (fun s t u => (add_zero_left s u).trans (add_zero_left t u).symm)
    (fun u s t => (add_zero_right u s).trans (add_zero_right u t).symm)
    (sameUpToZero_of_alike hab) (sameUpToZero_of_alike hcd))
  sub hab hcd := alike_packed (sameUpToZero_of_zeros sub_zero_left
    (fun u s t => (sub_zero_right u s).trans (sub_zero_right u t).symm)
    (sameUpToZero_of_alike hab) (sameUpToZero_of_alike hcd))
  mul hab hcd := alike_packed (sameUpToZero_of_zeros mul_zero_left mul_zero_right
    (sameUpToZero_of_alike hab) (sameUpToZero_of_alike hcd))
  div c hab := by
    rcases sameUpToZero_of_alike hab with h | ⟨⟨s, hs⟩, t, ht⟩
    · exact .inl (by rw [unpacked_inj h])
    · refine alike_packed ?_
      change SameUpToZero (UnpackedFloat.div .binary64 (unpacked _) _)
        (UnpackedFloat.div .binary64 (unpacked _) _)
      rw [hs, ht]
      exact div_zero_left s t _
  eq_of_pos hab hpos := by
    refine eq_of_alike hab fun hrank => ?_
    have hbelow := (lt_iff.mp hpos).2.2
    rw [hrank, rank_zero] at hbelow
    simp [Rank.Below] at hbelow
  eq_of_neg hab hneg := by
    refine eq_of_alike hab fun hrank => ?_
    have hbelow := (lt_iff.mp hneg).2.2
    rw [hrank, rank_zero] at hbelow
    simp [Rank.Below] at hbelow
  leastModel_pos := by decide +kernel

end ParameterScan.Double
