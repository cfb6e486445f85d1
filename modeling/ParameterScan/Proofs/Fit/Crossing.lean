import Mathlib.Tactic.FieldSimp
import Mathlib.Tactic.Linarith
import Mathlib.Tactic.NormNum
import Mathlib.Tactic.Ring
import ParameterScan.Fit.Crossing
import ParameterScan.Proofs.Scalar.Real
import ParameterScan.Proofs.Scan.Targets

/-!
# The bracket around a crossing

A search for a crossing takes the profile at points of its own choosing, one after the other. An
error at one of them is its outcome; what the profile is elsewhere does not matter.

In exact arithmetic the walk outward passes the places at one step from the start, at two, at four
and so on, moved back onto the limit. It ends between two neighbouring places, the profile having
reached the level at the outer one only, or it finds no crossing. Halving keeps the ends of the
bracket on their sides of the crossing. The midpoint that is returned is therefore in the direction
of the search and not beyond the limit, whatever the profile is, and where the profile crosses the
level at one point it is within half of the last width of that point.
-/
namespace ParameterScan

/-- A computation takes a function, which may fail, at the points of a list and nowhere else. -/
structure Consults {α β ε ρ : Type} (run : (α → Except ε β) → Except ε ρ) (f : α → Except ε β)
    (xs : List α) : Prop where
  error_of_mem : ∀ x ∈ xs, ∀ e, f x = .error e → run f = .error e
  exists_of_error : ∀ e, run f = .error e → ∃ x ∈ xs, f x = .error e
  congr : ∀ g, (∀ x ∈ xs, g x = f x) → run g = run f

namespace Consults

variable {α β ε ρ δ : Type} {f : α → Except ε β}

theorem nowhere (r : ρ) : Consults (fun _ => .ok r) f [] where
  error_of_mem _ hx := by cases hx
  exists_of_error _ he := by cases he
  congr _ _ := rfl

theorem once (x : α) : Consults (fun g => g x) f [x] where
  error_of_mem _ hy _ he := List.mem_singleton.mp hy ▸ he
  exists_of_error _ he := ⟨x, List.mem_singleton_self x, he⟩
  congr _ hg := hg x (List.mem_singleton_self x)

/-- What is computed from a result may depend on it for where it takes the function. -/
theorem exists_bind {run : (α → Except ε β) → Except ε ρ}
    {next : ρ → (α → Except ε β) → Except ε δ} {xs : List α} (h : Consults run f xs)
    (hnext : ∀ r, ∃ ys, Consults (next r) f ys) :
    ∃ zs, Consults (fun g => run g >>= fun r => next r g) f zs := by
  cases hrun : run f with
  | error e =>
      refine ⟨xs, ?_, ?_, ?_⟩
      · intro x hx e' he'
        obtain rfl : e = e' := Except.error.inj (hrun.symm.trans (h.error_of_mem x hx e' he'))
        simp only [hrun]
        rfl
      · intro e' he'
        simp only [hrun] at he'
        have hsame : (.error e : Except ε ρ) = .error e' := congrArg _ (Except.error.inj he')
        exact h.exists_of_error e' (hrun.trans hsame)
      · intro g hg
        simp only [h.congr g hg, hrun]
        rfl
  | ok r =>
      obtain ⟨ys, hys⟩ := hnext r
      have hok (g : α → Except ε β) (hg : run g = .ok r) :
          (run g >>= fun r => next r g) = next r g := by
        rw [hg]
        rfl
      refine ⟨xs ++ ys, ?_, ?_, ?_⟩
      · intro x hx e he
        rcases List.mem_append.mp hx with hx | hx
        · cases hrun.symm.trans (h.error_of_mem x hx e he)
        · exact (hok f hrun).trans (hys.error_of_mem x hx e he)
      · intro e he
        obtain ⟨x, hx, hxe⟩ := hys.exists_of_error e ((hok f hrun).symm.trans he)
        exact ⟨x, List.mem_append_right _ hx, hxe⟩
      · intro g hg
        have hrun' : run g = .ok r :=
          (h.congr g fun x hx => hg x (List.mem_append_left _ hx)).trans hrun
        rw [hok g hrun', hok f hrun]
        exact hys.congr g fun x hx => hg x (List.mem_append_right _ hx)

end Consults

namespace Crossing

section Consulted

variable {α ε : Type} [Scalar α] (profile : α → Except ε α)

theorem exists_consults_expand (start direction limit level : α) (fuel : ℕ) (inner step : α) :
    ∃ xs, Consults (fun g => expand g start direction limit level fuel inner step) profile xs := by
  induction fuel generalizing inner step with
  | zero => exact ⟨[], .nowhere none⟩
  | succ fuel ih =>
      let x := candidate start direction step limit
      apply Consults.exists_bind (.once x)
      intro y
      split_ifs
      · exact ⟨[], .nowhere _⟩
      · exact ⟨[], .nowhere _⟩
      · exact ih x (step * 2)

theorem exists_consults_bisect (level tolerance : α) (fuel : ℕ) (inner outer : α) :
    ∃ xs, Consults (fun g => bisect g level tolerance fuel inner outer) profile xs := by
  induction fuel generalizing inner outer with
  | zero => exact ⟨[], .nowhere _⟩
  | succ fuel ih =>
      simp only [bisect]
      split_ifs with hnarrow
      · exact ⟨[], .nowhere _⟩
      · apply Consults.exists_bind (.once _)
        intro y
        split_ifs
        · exact ih _ _
        · exact ih _ _

theorem exists_consults_offset? (start direction step limit level : α) :
    ∃ xs, Consults (fun g => offset? g start direction step limit level) profile xs := by
  obtain ⟨xs, hxs⟩ := exists_consults_expand profile start direction limit level maxExpansions
    start step
  apply hxs.exists_bind
  intro found
  cases found with
  | none => exact ⟨[], .nowhere none⟩
  | some ends =>
      obtain ⟨ys, hys⟩ := exists_consults_bisect profile level (tolerance start) maxBisections
        ends.1 ends.2
      apply hys.exists_bind
      intro narrow
      exact ⟨[], .nowhere _⟩

end Consulted

open scoped Exact

/-- A search for a crossing of a level in one direction, by steps of which the first is positive,
from a start that is not beyond the limit. -/
structure Search (ε : Type) where
  profile : ℝ → Except ε ℝ
  start : ℝ
  direction : ℝ
  step : ℝ
  limit : ℝ
  level : ℝ
  direction_eq : direction = 1 ∨ direction = -1
  step_pos : 0 < step
  start_le : direction * start ≤ direction * limit

namespace Search

variable {ε : Type} {s : Search ε}

noncomputable def outcome (s : Search ε) : Except ε (Option ℝ) :=
  offset? s.profile s.start s.direction s.step s.limit s.level

/-- How far a point lies from the start in the direction of the search. -/
def distance (s : Search ε) (x : ℝ) : ℝ := s.direction * (x - s.start)

/-- The profile has a value below the level. -/
def Below (s : Search ε) (x : ℝ) : Prop := ∃ y, s.profile x = .ok y ∧ y < s.level

/-- The profile has a value that is not below the level. -/
def Reached (s : Search ε) (x : ℝ) : Prop := ∃ y, s.profile x = .ok y ∧ s.level ≤ y

/-- The places that the walk outward passes, the start first. -/
noncomputable def place (s : Search ε) : ℕ → ℝ
  | 0 => s.start
  | k + 1 => candidate s.start s.direction (s.step * 2 ^ k) s.limit

/-- The ends of a bracket: in order between the start and the limit, and on the two sides of the
crossing. The profile is not taken at the start. -/
structure Brackets (s : Search ε) (inner outer : ℝ) : Prop where
  start_le : 0 ≤ s.distance inner
  inner_le : s.distance inner ≤ s.distance outer
  le_limit : s.distance outer ≤ s.distance s.limit
  below : inner = s.start ∨ s.Below inner
  reached : s.Reached outer

/-- Up to a point the profile is below the level where it has a value, and beyond it is not. -/
def CrossesAt (s : Search ε) (c : ℝ) : Prop :=
  ∀ x y, 0 ≤ s.distance x → s.distance x ≤ s.distance s.limit → s.profile x = .ok y →
    (s.distance x < s.distance c → y < s.level) ∧ (s.distance c < s.distance x → s.level ≤ y)

section Distance

theorem direction_mul_self (s : Search ε) : s.direction * s.direction = 1 := by
  rcases s.direction_eq with h | h <;> rw [h] <;> norm_num

theorem abs_direction (s : Search ε) : |s.direction| = 1 := by
  rcases s.direction_eq with h | h <;> simp [h]

@[simp] theorem distance_start (s : Search ε) : s.distance s.start = 0 := by
  simp [distance]

theorem distance_add_offset (s : Search ε) (t : ℝ) :
    s.distance (s.start + s.direction * t) = t := by
  rw [distance, add_sub_cancel_left, ← mul_assoc, s.direction_mul_self, one_mul]

theorem distance_limit_nonneg (s : Search ε) : 0 ≤ s.distance s.limit := by
  rw [distance, mul_sub]
  exact sub_nonneg.mpr s.start_le

theorem distance_middle (s : Search ε) (x y : ℝ) :
    s.distance ((x + y) / 2) = (s.distance x + s.distance y) / 2 := by
  simp only [distance]
  ring

/-- In either direction the distances keep the gaps between points. -/
theorem abs_sub_eq (s : Search ε) (x y : ℝ) : |x - y| = |s.distance x - s.distance y| := by
  rw [distance, distance, ← mul_sub, abs_mul, s.abs_direction, one_mul, sub_sub_sub_cancel_right]

theorem Brackets.width_eq {inner outer : ℝ} (h : s.Brackets inner outer) :
    |outer - inner| = s.distance outer - s.distance inner := by
  rw [s.abs_sub_eq, abs_of_nonneg (sub_nonneg.mpr h.inner_le)]

end Distance

section Places

theorem candidate_eq (start direction step limit : ℝ) :
    candidate start direction step limit =
      if 0 ≤ (start + direction * step - limit) * direction then limit
      else start + direction * step := by
  simp only [candidate, Scalar.real_zero]

/-- A step beyond the limit is moved back onto it. -/
theorem place_succ (s : Search ε) (k : ℕ) :
    s.place (k + 1) = if s.distance s.limit ≤ s.step * 2 ^ k then s.limit
      else s.start + s.direction * (s.step * 2 ^ k) := by
  have hbeyond : (s.start + s.direction * (s.step * 2 ^ k) - s.limit) * s.direction =
      s.step * 2 ^ k - s.distance s.limit := by
    have hone := s.direction_mul_self
    rw [distance]
    linear_combination s.step * 2 ^ k * hone
  rw [place, candidate_eq, hbeyond]
  simp only [sub_nonneg]

theorem distance_place_succ (s : Search ε) (k : ℕ) :
    s.distance (s.place (k + 1)) = min (s.step * 2 ^ k) (s.distance s.limit) := by
  rw [place_succ]
  split_ifs with h
  · rw [min_eq_right h]
  · rw [min_eq_left (le_of_not_ge h), distance_add_offset]

theorem distance_place_nonneg (s : Search ε) (k : ℕ) : 0 ≤ s.distance (s.place k) := by
  have hstep := s.step_pos
  cases k with
  | zero => exact s.distance_start.ge
  | succ k =>
      rw [distance_place_succ]
      exact le_min (by positivity) s.distance_limit_nonneg

theorem distance_place_le_limit (s : Search ε) (k : ℕ) :
    s.distance (s.place k) ≤ s.distance s.limit := by
  cases k with
  | zero => exact s.distance_start.trans_le s.distance_limit_nonneg
  | succ k =>
      rw [distance_place_succ]
      exact min_le_right _ _

theorem distance_place_le (s : Search ε) (k : ℕ) :
    s.distance (s.place k) ≤ s.distance (s.place (k + 1)) := by
  have hstep := s.step_pos
  cases k with
  | zero => exact s.distance_start.trans_le (s.distance_place_nonneg 1)
  | succ k =>
      rw [distance_place_succ, distance_place_succ]
      apply min_le_min_right
      gcongr
      · norm_num
      · exact k.le_succ

theorem place_succ_of_ne {k : ℕ} (h : s.place (k + 1) ≠ s.limit) :
    s.place (k + 1) = s.start + s.direction * (s.step * 2 ^ k) := by
  rw [place_succ] at h ⊢
  split_ifs at h ⊢ with hbeyond
  · exact absurd rfl h
  · rfl

end Places

section Walk

theorem expand_succ (s : Search ε) (fuel k : ℕ) :
    expand s.profile s.start s.direction s.limit s.level (fuel + 1) (s.place k) (s.step * 2 ^ k) =
      s.profile (s.place (k + 1)) >>= fun y =>
        if s.level ≤ y then .ok (some (s.place k, s.place (k + 1)))
        else if s.place (k + 1) = s.limit then .ok none
        else expand s.profile s.start s.direction s.limit s.level fuel (s.place (k + 1))
          (s.step * 2 ^ (k + 1)) := by
  have hdouble : s.step * 2 ^ k * @OfNat.ofNat ℝ 2 (Scalar.instOfNat 2) = s.step * 2 ^ (k + 1) := by
    rw [Scalar.real_ofNat, pow_succ, mul_assoc]
  simp only [expand, Scalar.real_beq, decide_eq_true_eq, hdouble]
  rfl

/-- What a walk that does not fail comes to: two neighbouring places, or no crossing. -/
def Walked (s : Search ε) : Option (ℝ × ℝ) → Prop
  | some (inner, outer) => ∃ k < maxExpansions, inner = s.place k ∧ outer = s.place (k + 1) ∧
      (∀ j < k, s.Below (s.place (j + 1))) ∧ s.Reached (s.place (k + 1))
  | none => s.Below s.limit ∨
      ∀ k < maxExpansions, s.Below (s.place (k + 1)) ∧ s.place (k + 1) ≠ s.limit

/-- A walk has passed `k` places below the level and short of the limit. -/
theorem walked_of_expand {k fuel : ℕ} {found : Option (ℝ × ℝ)} (hfuel : k + fuel = maxExpansions)
    (hpassed : ∀ j < k, s.Below (s.place (j + 1)) ∧ s.place (j + 1) ≠ s.limit)
    (h : expand s.profile s.start s.direction s.limit s.level fuel (s.place k)
      (s.step * 2 ^ k) = .ok found) : s.Walked found := by
  induction fuel generalizing k with
  | zero =>
      obtain rfl : k = maxExpansions := hfuel
      cases h
      exact .inr hpassed
  | succ fuel ih =>
      rw [expand_succ] at h
      obtain ⟨y, hy, h⟩ := exists_of_bind_eq_ok h
      split_ifs at h with hreached hlimit
      · cases h
        exact ⟨k, by omega, rfl, rfl, fun j hj => (hpassed j hj).1, y, hy, hreached⟩
      · cases h
        exact .inl (hlimit ▸ ⟨y, hy, not_le.mp hreached⟩)
      · apply ih (by omega) _ h
        intro j hj
        rcases Nat.lt_succ_iff_lt_or_eq.mp hj with hj | rfl
        · exact hpassed j hj
        · exact ⟨⟨y, hy, not_le.mp hreached⟩, hlimit⟩

/-- Two neighbouring places of which only the outer one has reached the level. -/
theorem brackets_place {k : ℕ} (hbelow : ∀ j < k, s.Below (s.place (j + 1)))
    (hreached : s.Reached (s.place (k + 1))) : s.Brackets (s.place k) (s.place (k + 1)) where
  start_le := s.distance_place_nonneg k
  inner_le := s.distance_place_le k
  le_limit := s.distance_place_le_limit (k + 1)
  below := by
    cases k with
    | zero => exact .inl rfl
    | succ k => exact .inr (hbelow k k.lt_succ_self)
  reached := hreached

end Walk

section Halving

variable {inner outer : ℝ}

theorem Brackets.start_le_middle (h : s.Brackets inner outer) :
    s.distance inner ≤ s.distance ((inner + outer) / 2) ∧
      s.distance ((inner + outer) / 2) ≤ s.distance outer := by
  have hle := h.inner_le
  rw [distance_middle]
  constructor <;> linarith

theorem Brackets.lower_outer (h : s.Brackets inner outer)
    (hreached : s.Reached ((inner + outer) / 2)) : s.Brackets inner ((inner + outer) / 2) where
  start_le := h.start_le
  inner_le := h.start_le_middle.1
  le_limit := h.start_le_middle.2.trans h.le_limit
  below := h.below
  reached := hreached

theorem Brackets.raise_inner (h : s.Brackets inner outer)
    (hbelow : s.Below ((inner + outer) / 2)) : s.Brackets ((inner + outer) / 2) outer where
  start_le := h.start_le.trans h.start_le_middle.1
  inner_le := h.start_le_middle.2
  le_limit := h.le_limit
  below := .inr hbelow
  reached := h.reached

theorem bisect_succ (s : Search ε) (width : ℝ) (fuel : ℕ) (inner outer : ℝ) :
    bisect s.profile s.level width (fuel + 1) inner outer =
      if |outer - inner| ≤ width then .ok (inner, outer)
      else s.profile ((inner + outer) / 2) >>= fun y =>
        if s.level ≤ y then bisect s.profile s.level width fuel inner ((inner + outer) / 2)
        else bisect s.profile s.level width fuel ((inner + outer) / 2) outer := by
  have hmiddle : (0.5 : ℝ) * (inner + outer) = (inner + outer) / 2 := by ring
  have hhalf : @OfScientific.ofScientific ℝ Scalar.instOfScientific 5 true 1 = 0.5 := by
    rw [Scalar.real_decimal]
    norm_num
  simp only [bisect, Scalar.real_abs, hhalf, hmiddle]

theorem abs_half_div (x : ℝ) (fuel : ℕ) : |x / 2| / 2 ^ fuel = |x| / 2 ^ (fuel + 1) := by
  rw [abs_div, abs_two, div_div, pow_succ']

/-- Halving a bracket gives a bracket, as narrow as was asked for or halved each time. -/
theorem Brackets.of_bisect {width : ℝ} {fuel : ℕ} {ends : ℝ × ℝ} (h : s.Brackets inner outer)
    (hends : bisect s.profile s.level width fuel inner outer = .ok ends) :
    s.Brackets ends.1 ends.2 ∧ |ends.2 - ends.1| ≤ max width (|outer - inner| / 2 ^ fuel) := by
  induction fuel generalizing inner outer with
  | zero =>
      cases hends
      exact ⟨h, by simp⟩
  | succ fuel ih =>
      have hlower : |(inner + outer) / 2 - inner| / 2 ^ fuel =
          |outer - inner| / 2 ^ (fuel + 1) := by
        rw [← abs_half_div]
        ring_nf
      have hraise : |outer - (inner + outer) / 2| / 2 ^ fuel =
          |outer - inner| / 2 ^ (fuel + 1) := by
        rw [← abs_half_div]
        ring_nf
      rw [bisect_succ] at hends
      split_ifs at hends with hnarrow
      · cases hends
        exact ⟨h, le_max_of_le_left hnarrow⟩
      · obtain ⟨y, hy, hends⟩ := exists_of_bind_eq_ok hends
        split_ifs at hends with hreached
        · rw [← hlower]
          exact ih (h.lower_outer ⟨y, hy, hreached⟩) hends
        · rw [← hraise]
          exact ih (h.raise_inner ⟨y, hy, not_le.mp hreached⟩) hends

end Halving

section Offset

variable {inner outer c : ℝ}

/-- A profile that rises strictly crosses the level where it has it as its value. -/
theorem crossesAt_of_strictMono
    (hrises : ∀ x x' y y', 0 ≤ s.distance x → s.distance x < s.distance x' →
      s.distance x' ≤ s.distance s.limit → s.profile x = .ok y → s.profile x' = .ok y' → y < y')
    (hstart : 0 ≤ s.distance c) (hlimit : s.distance c ≤ s.distance s.limit)
    (hc : s.profile c = .ok s.level) : s.CrossesAt c := by
  intro x y hx hxlimit hy
  constructor
  · intro hlt
    exact hrises x c y s.level hx hlt hlimit hy hc
  · intro hlt
    exact (hrises c x s.level y hstart hlt hxlimit hc hy).le

/-- The crossing lies between the ends of a bracket. -/
theorem Brackets.between (h : s.Brackets inner outer) (hc : s.CrossesAt c)
    (hstart : s.Below s.start) :
    s.distance inner ≤ s.distance c ∧ s.distance c ≤ s.distance outer := by
  have hbelow : s.Below inner := by
    rcases h.below with rfl | hbelow
    · exact hstart
    · exact hbelow
  obtain ⟨y, hy, hlt⟩ := hbelow
  obtain ⟨y', hy', hle⟩ := h.reached
  constructor
  · by_contra hbeyond
    have hreached := (hc inner y h.start_le (h.inner_le.trans h.le_limit) hy).2 (not_le.mp hbeyond)
    exact absurd hreached (not_le.mpr hlt)
  · by_contra hbefore
    have hnot := (hc outer y' (h.start_le.trans h.inner_le) h.le_limit hy').1 (not_le.mp hbefore)
    exact absurd hle (not_le.mpr hnot)

theorem Brackets.abs_middle_sub_le (h : s.Brackets inner outer) (hc : s.CrossesAt c)
    (hstart : s.Below s.start) : |(inner + outer) / 2 - c| ≤ |outer - inner| / 2 := by
  obtain ⟨hinner, houter⟩ := h.between hc hstart
  rw [h.width_eq, s.abs_sub_eq, distance_middle, abs_le]
  constructor <;> linarith

/-- The width to which a bracket is halved, relative to the magnitude of the start. -/
noncomputable def narrow (s : Search ε) : ℝ := 1e-8 * (1 + |s.start|)

/-- What halving leaves of the bracket beyond place `k`, at the most. -/
noncomputable def finalWidth (s : Search ε) (k : ℕ) : ℝ :=
  max s.narrow (|s.place (k + 1) - s.place k| / 2 ^ 100)

theorem tolerance_start (s : Search ε) : tolerance s.start = s.narrow := by
  simp only [tolerance, narrow, Scalar.real_abs, Scalar.real_one, Scalar.real_decimal]
  norm_num

theorem outcome_eq_ok {found : Option ℝ} (h : s.outcome = .ok found) :
    ∃ bracket, s.Walked bracket ∧
      match bracket with
      | none => found = none
      | some (inner, outer) => ∃ ends : ℝ × ℝ,
          bisect s.profile s.level s.narrow maxBisections inner outer = .ok ends ∧
            found = some ((ends.1 + ends.2) / 2 - s.start) := by
  unfold outcome offset? at h
  obtain ⟨bracket, hwalk, h⟩ := exists_of_bind_eq_ok h
  have hpow : s.step * 2 ^ 0 = s.step := by rw [pow_zero, mul_one]
  have hwalked : s.Walked bracket :=
    walked_of_expand (k := 0) (Nat.zero_add maxExpansions) (fun j hj => absurd hj j.not_lt_zero)
      (hpow.symm ▸ hwalk)
  refine ⟨bracket, hwalked, ?_⟩
  cases bracket with
  | none =>
      cases h
      rfl
  | some bracket =>
      obtain ⟨ends, hends, h⟩ := exists_of_bind_eq_ok h
      rw [tolerance_start] at hends
      refine ⟨ends, hends, ?_⟩
      cases h
      rw [Scalar.real_decimal]
      ring_nf

end Offset

end Search

open Search

/-- A search consults its profile, and passes on the error of any point at which it does. An offset
that it finds is the midpoint of a bracket, halved from one between two neighbouring places of the
walk. It is in the direction of the search and not beyond the limit, and a crossing is within half
of the final width. No offset is found only where the profile is below the level at the limit, or
after sixty steps, each of them twice the one before it. -/
theorem offset_brackets_crossing {ε : Type} (s : Search ε) :
    (∃ points, Consults (fun g => offset? g s.start s.direction s.step s.limit s.level) s.profile
      points) ∧
    (∀ offset, s.outcome = .ok (some offset) →
      ∃ k < 60, (∀ j < k, s.Below (s.place (j + 1))) ∧
        s.Brackets (s.place k) (s.place (k + 1)) ∧
        ∃ inner outer, s.Brackets inner outer ∧ offset = (inner + outer) / 2 - s.start ∧
          |outer - inner| ≤ s.finalWidth k ∧ 0 ≤ s.direction * offset ∧
          s.distance (s.start + offset) ≤ s.distance s.limit ∧
          ∀ c, s.CrossesAt c → s.Below s.start →
            |offset - (c - s.start)| ≤ s.finalWidth k / 2) ∧
    (s.outcome = .ok none → s.Below s.limit ∨
      ∀ k < 60, s.Below (s.start + s.direction * (s.step * 2 ^ k))) := by
  refine ⟨exists_consults_offset? _ _ _ _ _ _, ?_, ?_⟩
  · intro offset h
    obtain ⟨bracket, hwalked, h⟩ := outcome_eq_ok h
    rcases bracket with - | ⟨first, last⟩
    · cases h
    obtain ⟨k, hk, rfl, rfl, hbelow, hreached⟩ := hwalked
    obtain ⟨⟨inner, outer⟩, hends, h⟩ := h
    obtain rfl := Option.some.inj h
    have hplaces := brackets_place hbelow hreached
    obtain ⟨hbracket, hwidth⟩ := hplaces.of_bisect hends
    obtain ⟨hinner, houter⟩ := hbracket.start_le_middle
    refine ⟨k, hk, hbelow, hplaces, inner, outer, hbracket, rfl, hwidth, ?_, ?_, ?_⟩
    · exact hbracket.start_le.trans hinner
    · rw [add_sub_cancel]
      exact houter.trans hbracket.le_limit
    · intro c hc hstart
      rw [sub_sub_sub_cancel_right]
      exact (hbracket.abs_middle_sub_le hc hstart).trans
        (div_le_div_of_nonneg_right hwidth two_pos.le)
  · intro h
    obtain ⟨bracket, hwalked, h⟩ := outcome_eq_ok h
    rcases bracket with - | ⟨first, last⟩
    · apply hwalked.imp_right
      intro hpassed k hk
      obtain ⟨hbelow, hlimit⟩ := hpassed k hk
      rwa [place_succ_of_ne hlimit] at hbelow
    · obtain ⟨ends, -, h⟩ := h
      cases h

/-- The square of a number, to be followed upward from zero to where it is one. -/
noncomputable def squareSearch : Search Unit where
  profile x := .ok (x ^ 2)
  start := 0
  direction := 1
  step := 1 / 2
  limit := 10
  level := 1
  direction_eq := .inl rfl
  step_pos := by norm_num
  start_le := by norm_num

theorem squareSearch_crossesAt_one : squareSearch.CrossesAt 1 := by
  apply crossesAt_of_strictMono
  · intro x x' y y' hx hlt _ hy hy'
    cases hy
    cases hy'
    simp only [distance, squareSearch, one_mul, sub_zero] at hx hlt
    gcongr
  · norm_num [distance, squareSearch]
  · norm_num [distance, squareSearch]
  · norm_num [squareSearch]

theorem squareSearch_below_iff (x : ℝ) : squareSearch.Below x ↔ x ^ 2 < 1 := by
  constructor
  · rintro ⟨y, hy, hlt⟩
    cases hy
    exact hlt
  · intro hlt
    exact ⟨x ^ 2, rfl, hlt⟩

theorem squareSearch_finalWidth_le {k : ℕ}
    (h : squareSearch.Brackets (squareSearch.place k) (squareSearch.place (k + 1))) :
    squareSearch.finalWidth k ≤ 1e-8 := by
  have hlimit : squareSearch.distance squareSearch.limit = 10 := by
    norm_num [distance, squareSearch]
  have hwidth : |squareSearch.place (k + 1) - squareSearch.place k| ≤ 10 := by
    rw [h.width_eq]
    linarith [h.start_le, h.le_limit]
  apply max_le
  · norm_num [narrow, squareSearch]
  · calc |squareSearch.place (k + 1) - squareSearch.place k| / 2 ^ 100 ≤ 10 / 2 ^ 100 := by gcongr
      _ ≤ 1e-8 := by norm_num

/-- The crossing is found up to half of the width that is asked for. -/
theorem squareSearch_finds_one : squareSearch.CrossesAt 1 ∧ squareSearch.Below 0 ∧
    ∃ offset, squareSearch.outcome = .ok (some offset) ∧ |offset - 1| ≤ 1e-8 / 2 := by
  obtain ⟨⟨points, hpoints⟩, hsome, hnone⟩ := offset_brackets_crossing squareSearch
  have hcrosses := squareSearch_crossesAt_one
  have hstart : squareSearch.Below 0 := by
    rw [squareSearch_below_iff]
    norm_num
  refine ⟨hcrosses, hstart, ?_⟩
  cases houtcome : squareSearch.outcome with
  | error e =>
      obtain ⟨x, -, hx⟩ := hpoints.exists_of_error e houtcome
      cases hx
  | ok found =>
      cases found with
      | none =>
          -- The second place is one itself, and the limit is beyond it.
          rcases hnone houtcome with hlimit | hplaces
          · have hten := (squareSearch_below_iff _).mp hlimit
            norm_num [squareSearch] at hten
          · have hsecond := (squareSearch_below_iff _).mp (hplaces 1 (by norm_num))
            norm_num [squareSearch] at hsecond
      | some offset =>
          obtain ⟨k, -, -, hplaces, -, -, -, -, -, -, -, hnear⟩ := hsome offset houtcome
          refine ⟨offset, rfl, ?_⟩
          have hle := hnear 1 hcrosses hstart
          rw [show squareSearch.start = 0 from rfl, sub_zero] at hle
          linarith [squareSearch_finalWidth_le hplaces]

end Crossing

end ParameterScan
