import Mathlib.Data.EReal.Operations
import ParameterScan.Proofs.Scalar.Order
import ParameterScan.Proofs.Scalar.Real

/-!
# Exact arithmetic with special values

Real numbers, two infinities and a `NaN`, in the roles that they have among doubles: operations on
real numbers are exact, and those on special values follow the rules of IEEE 754. There is one zero,
and it counts as positive where a sign is asked for.

On real numbers alone (`Exact.real`) a function of a fit can have no value that is not a number. Here
coordinates can be real numbers and the values of a function anything at all.
-/
namespace ParameterScan

open scoped Exact

inductive Extended where
  | real (x : ℝ)
  | infinite (negative : Bool)
  | nan

namespace Extended

/-- Where a number lies among the others. A `NaN` lies nowhere. -/
noncomputable def place : Extended → Option EReal
  | real x => some x
  | infinite negative => some (if negative then ⊥ else ⊤)
  | nan => none

/-- The number below zero, with `NaN` and zero counted as positive. -/
noncomputable def negative : Extended → Bool
  | real x => decide (x < 0)
  | infinite negative => negative
  | nan => false

def neg : Extended → Extended
  | real x => real (-x)
  | infinite negative => infinite !negative
  | nan => nan

noncomputable def add : Extended → Extended → Extended
  | real x, real y => real (x + y)
  | infinite s, infinite t => if s = t then infinite s else nan
  | infinite s, real _ => infinite s
  | real _, infinite t => infinite t
  | nan, _ => nan
  | _, nan => nan

noncomputable def mul : Extended → Extended → Extended
  | real x, real y => real (x * y)
  | infinite s, infinite t => infinite (s ^^ t)
  | infinite s, real y => if y = 0 then nan else infinite (s ^^ (real y).negative)
  | real x, infinite t => if x = 0 then nan else infinite ((real x).negative ^^ t)
  | nan, _ => nan
  | _, nan => nan

noncomputable def div : Extended → Extended → Extended
  | real x, real y =>
      if y = 0 then if x = 0 then nan else infinite (real x).negative else real (x / y)
  | infinite _, infinite _ => nan
  | infinite s, real y => infinite (s ^^ (real y).negative)
  | real _, infinite _ => real 0
  | nan, _ => nan
  | _, nan => nan

/-- A function that is defined from a number on, with its values there and at the infinities. -/
noncomputable def extend (domain : Set ℝ) (g : ℝ → Extended) (bottom top : Extended) :
    Extended → Extended
  | real x => open scoped Classical in if x ∈ domain then g x else nan
  | infinite negative => if negative then bottom else top
  | nan => nan

open scoped Classical in
noncomputable instance : Scalar Extended where
  add := add
  sub a b := add a (neg b)
  mul := mul
  div := div
  neg := neg
  lt a b := ∃ x ∈ a.place, ∃ y ∈ b.place, x < y
  le a b := ∃ x ∈ a.place, ∃ y ∈ b.place, x ≤ y
  beq a b := decide (∃ x, x ∈ a.place ∧ x ∈ b.place)
  decLt _ _ := Classical.propDecidable _
  decLe _ _ := Classical.propDecidable _
  ofNat n := real n
  ofDecimal m e := real (m / 10 ^ e)
  toNat a := match a with
    | real x => ⌊x⌋₊
    | _ => 0
  isNaN a := a.place.isNone
  isFinite a := match a with
    | real _ => true
    | _ => false
  infinity := infinite false
  abs := extend Set.univ (fun x => real |x|) (infinite false) (infinite false)
  sqrt := extend (Set.Ici 0) (fun x => real √x) nan (infinite false)
  floor := extend Set.univ (fun x => real ⌊x⌋) (infinite true) (infinite false)
  ln := extend (Set.Ici 0) (fun x => if x = 0 then infinite true else real (Real.log x)) nan
    (infinite false)
  log10 := extend (Set.Ici 0) (fun x => if x = 0 then infinite true else real (Real.logb 10 x)) nan
    (infinite false)
  tenTo := extend Set.univ (fun x => real (10 ^ x)) (real 0) (infinite false)
  erfc := extend Set.univ (fun x => real (Scalar.erfc x)) (real 2) (real 0)

variable {a b : Extended}

theorem le_iff : a ≤ b ↔ ∃ x ∈ a.place, ∃ y ∈ b.place, x ≤ y := Iff.rfl

theorem lt_iff : a < b ↔ ∃ x ∈ a.place, ∃ y ∈ b.place, x < y := Iff.rfl

@[simp] theorem add_real (x y : ℝ) : real x + real y = real (x + y) := rfl

@[simp] theorem sub_real (x y : ℝ) : real x - real y = real (x - y) :=
  congrArg real (sub_eq_add_neg x y).symm

@[simp] theorem mul_real (x y : ℝ) : real x * real y = real (x * y) := rfl

@[simp] theorem decimal_real (m e : ℕ) :
    @OfScientific.ofScientific Extended Scalar.instOfScientific m true e = real (m / 10 ^ e) := rfl

@[simp] theorem real_le_real {x y : ℝ} : real x ≤ real y ↔ x ≤ y := by
  simp [le_iff, place]

theorem isNaN_eq_false : Scalar.isNaN a = false ↔ ∃ x, x ∈ a.place := by
  change a.place.isNone = false ↔ _
  rw [Option.isNone_eq_false_iff, Option.isSome_iff_exists]
  rfl

/-- Between two real numbers there are no others. -/
theorem exists_real_of_between {x y : ℝ} (hl : real x ≤ a) (hu : a ≤ real y) :
    ∃ z, a = real z ∧ x ≤ z ∧ z ≤ y := by
  cases a with
  | real z => exact ⟨z, rfl, real_le_real.mp hl, real_le_real.mp hu⟩
  | infinite negative => cases negative <;> simp [le_iff, place] at hl hu
  | nan => simp [le_iff, place] at hl

instance : Scalar.Ordered Extended where
  le_of_lt := fun ⟨x, hx, y, hy, h⟩ => ⟨x, hx, y, hy, h.le⟩
  le_trans := by
    rintro a b c ⟨x, hx, y, hy, hxy⟩ ⟨y', hy', z, hz, hyz⟩
    obtain rfl := Option.mem_unique hy hy'
    exact ⟨x, hx, z, hz, hxy.trans hyz⟩
  not_lt_of_le := by
    rintro a b ⟨x, hx, y, hy, hxy⟩ ⟨y', hy', x', hx', hyx⟩
    obtain rfl := Option.mem_unique hx hx'
    obtain rfl := Option.mem_unique hy hy'
    exact hxy.not_gt hyx
  le_of_not_lt := by
    intro a b ha hb h
    obtain ⟨x, hx⟩ := isNaN_eq_false.mp ha
    obtain ⟨y, hy⟩ := isNaN_eq_false.mp hb
    exact ⟨y, hy, x, hx, not_lt.mp fun hlt => h ⟨x, hx, y, hy, hlt⟩⟩
  isNaN_left := fun ⟨x, hx, _⟩ => isNaN_eq_false.mpr ⟨x, hx⟩
  isNaN_right := fun ⟨_, _, y, hy, _⟩ => isNaN_eq_false.mpr ⟨y, hy⟩
  isNaN_of_isFinite := by
    intro a ha
    cases a with
    | real x => rfl
    | infinite negative => cases ha
    | nan => cases ha
  isNaN_infinity := rfl
  isFinite_infinity := rfl

theorem zero_eq : (0 : Extended) = real 0 := congrArg real Nat.cast_zero

theorem one_eq : (1 : Extended) = real 1 := congrArg real Nat.cast_one

section Reals

@[simp] theorem neg_real (x : ℝ) : -real x = real (-x) := rfl

@[simp] theorem abs_real (x : ℝ) : Scalar.abs (real x) = real |x| := if_pos (Set.mem_univ x)

@[simp] theorem div_real (x : ℝ) {y : ℝ} (hy : y ≠ 0) : real x / real y = real (x / y) :=
  if_neg hy

@[simp] theorem real_lt_real {x y : ℝ} : real x < real y ↔ x < y := by
  simp [lt_iff, place]

@[simp] theorem larger_real (x y : ℝ) : Scalar.larger (real x) (real y) = real (max x y) := by
  have hnan : Scalar.isNaN (real y) = false := rfl
  simp only [Scalar.larger, hnan, Bool.false_or, decide_eq_true_eq, real_lt_real]
  split_ifs with h
  · rw [max_eq_left h.le]
  · rw [max_eq_right (not_lt.mp h)]

@[simp] theorem smaller_real (x y : ℝ) : Scalar.smaller (real x) (real y) = real (min x y) := by
  have hnan : Scalar.isNaN (real y) = false := rfl
  simp only [Scalar.smaller, hnan, Bool.false_or, decide_eq_true_eq, real_lt_real]
  split_ifs with h
  · rw [min_eq_left h.le]
  · rw [min_eq_right (not_lt.mp h)]

/-- A sum is a real number only if both terms are. -/
theorem exists_of_add_eq_real {x : ℝ} (h : a + b = real x) :
    ∃ y z, a = real y ∧ b = real z ∧ y + z = x := by
  change add a b = real x at h
  cases a with
  | real y =>
      cases b with
      | real z => exact ⟨y, z, rfl, rfl, real.inj h⟩
      | infinite t => cases h
      | nan => cases h
  | infinite s =>
      cases b with
      | real z => cases h
      | infinite t =>
          rw [add] at h
          split_ifs at h
      | nan => cases h
  | nan => cases h

theorem exists_of_mul_eq_real {x y : ℝ} (hy : y ≠ 0) (h : real y * a = real x) :
    ∃ z, a = real z := by
  cases a with
  | real z => exact ⟨z, rfl⟩
  | infinite s =>
      change mul (real y) (infinite s) = real x at h
      simp [mul, hy] at h
  | nan => cases h

@[simp] theorem ln_real {x : ℝ} (hx : 0 < x) : Scalar.ln (real x) = real (Real.log x) :=
  (if_pos hx.le).trans (if_neg hx.ne')

theorem place_add_real (a : Extended) (c : ℝ) :
    (a + real c).place = a.place.map fun x => x + (c : EReal) := by
  cases a with
  | real x => exact congrArg some (EReal.coe_add x c)
  | infinite negative =>
      cases negative with
      | true => exact congrArg some (EReal.bot_add _).symm
      | false => exact congrArg some (EReal.top_add_coe c).symm
  | nan => rfl

theorem add_real_le_add_real (c : ℝ) : a + real c ≤ b + real c ↔ a ≤ b := by
  simp [le_iff, place_add_real, (EReal.addLECancellable_coe c).add_le_add_iff_right]

theorem add_real_lt_add_real (c : ℝ) : a + real c < b + real c ↔ a < b := by
  have hlt : ∀ x y : EReal, x + c < y + c ↔ x < y := fun _ _ =>
    lt_iff_lt_of_le_iff_le (EReal.addLECancellable_coe c).add_le_add_iff_right
  simp [lt_iff, place_add_real, hlt]

end Reals

theorem isNaN_neg (h : Scalar.isNaN a = false) : Scalar.isNaN (-a) = false := by
  cases a with
  | real x => rfl
  | infinite s => rfl
  | nan => cases h

theorem place_injective : Function.Injective place := by
  intro a b h
  cases a with
  | real x =>
      cases b with
      | real y => exact congrArg real (EReal.coe_injective (Option.some.inj h))
      | infinite t => cases t <;> simp [place] at h
      | nan => cases h
  | infinite s =>
      cases b with
      | real y => cases s <;> simp [place] at h
      | infinite t => cases s <;> cases t <;> simp [place] at h ⊢
      | nan => cases h
  | nan =>
      cases b with
      | real y => cases h
      | infinite t => cases h
      | nan => rfl

/-- There is one zero, so that numbers below each other are the same. -/
theorem eq_of_le_of_le (h : a ≤ b) (h' : b ≤ a) : a = b := by
  obtain ⟨x, hx, y, hy, hxy⟩ := h
  obtain ⟨y', hy', x', hx', hyx⟩ := h'
  obtain rfl := Option.mem_unique hx hx'
  obtain rfl := Option.mem_unique hy hy'
  obtain rfl := hxy.antisymm hyx
  exact place_injective (hx.trans hy.symm)

theorem larger_eq_left (h : b ≤ a) : Scalar.larger a b = a := by
  unfold Scalar.larger
  split_ifs with hx
  · rfl
  · rw [Bool.or_eq_true, decide_eq_true_eq, not_or] at hx
    exact eq_of_le_of_le h (Scalar.Ordered.le_of_not_lt (Scalar.Ordered.isNaN_left h)
      (Scalar.Ordered.isNaN_right h) hx.2)

theorem smaller_eq_left (h : a ≤ b) : Scalar.smaller a b = a := by
  unfold Scalar.smaller
  split_ifs with hx
  · rfl
  · rw [Bool.or_eq_true, decide_eq_true_eq, not_or] at hx
    exact eq_of_le_of_le (Scalar.Ordered.le_of_not_lt (Scalar.Ordered.isNaN_left h)
      (Scalar.Ordered.isNaN_right h) hx.2) h

end Extended

end ParameterScan
