import Mathlib.Algebra.Order.BigOperators.Group.List
import Mathlib.Analysis.SpecialFunctions.Log.Basic
import ParameterScan.Proofs.Scalar.Real
import ParameterScan.Statistic

/-!
# The Poisson statistic as a discrepancy

In exact arithmetic `cstat` is twice the sum of a contribution of each point, or infinite where a
positive count meets a model that is not positive. The contribution `m - d + d ln (d / m)` of a
positive count is not negative, and zero for the model that is the count itself.

Inside the logarithm a model value counts as `10⁻³⁰⁰` at least. For a smaller value the contribution
may fall below zero, by no more than what the value was raised by, and only if the count is below
`e · 10⁻³⁰⁰`. A point without counts contributes its model value; what a negative one does to the
sum is not covered.
-/
namespace ParameterScan.Statistic

open scoped Exact

section Sums

variable {α : Type} [Scalar α] {term : α → α → α → α}

theorem accumulate_eq_none_iff {total : α} {points : List (α × α)} :
    accumulate term total points = none ↔ ∃ p ∈ points, impossible p.1 p.2 = true := by
  induction points generalizing total with
  | nil => simp [accumulate]
  | cons p points ih =>
      rw [accumulate, List.exists_mem_cons_iff]
      split_ifs with hp
      · exact iff_of_true rfl (.inl hp)
      · exact ih.trans (or_iff_right hp).symm

/-- Contributions that are added to the total are summed up. The points are real numbers, read as
numbers of whatever kind the statistic is computed in. -/
theorem accumulate_of_additive {e : ℝ → α} {f : ℝ → ℝ → ℝ}
    (hterm : ∀ total d m, term (e total) (e d) (e m) = e (total + f d m)) (total : ℝ)
    {points : List (ℝ × ℝ)} (h : ∀ p ∈ points, impossible (e p.1) (e p.2) = false) :
    accumulate term (e total) (points.map fun p => (e p.1, e p.2)) =
      some (e (total + (points.map fun p => f p.1 p.2).sum)) := by
  induction points generalizing total with
  | nil => simp [accumulate]
  | cons p points ih =>
      obtain ⟨hp, hpoints⟩ := List.forall_mem_cons.mp h
      rw [List.map_cons, accumulate, hp, if_neg Bool.false_ne_true, hterm, ih _ hpoints,
        List.map_cons, List.sum_cons, add_assoc]

end Sums

theorem impossible_iff {d m : ℝ} : impossible d m = true ↔ 0 < d ∧ m ≤ 0 := by
  simp [impossible, and_comm]

theorem leastModel_eq : (leastModel : ℝ) = 1 / 10 ^ 300 := by
  rw [leastModel, Scalar.real_decimal, Nat.cast_one]

theorem leastModel_le_one : (leastModel : ℝ) ≤ 1 := by
  rw [leastModel_eq, div_le_one (by positivity)]
  exact one_le_pow₀ (by norm_num)

theorem leastModel_pos : (0 : ℝ) < leastModel := by
  rw [leastModel_eq]
  positivity

/-- What a point adds to half of the statistic. -/
noncomputable def contribution (d m : ℝ) : ℝ :=
  m - d + if 0 < d then d * Real.log (d / max m leastModel) else 0

theorem cstatTerm_eq (total d m : ℝ) : cstatTerm total d m = total + contribution d m := by
  unfold cstatTerm contribution
  simp only [Scalar.real_larger, Scalar.real_zero]
  split_ifs
  · exact add_assoc _ _ _
  · rw [add_zero]

/-- The statistic with a value for infinity. -/
noncomputable def discrepancy (data model : List ℝ) : WithTop ℝ :=
  (likelihood? cstatTerm data model).elim ⊤ fun v => (v : WithTop ℝ)

theorem value_eq_of_discrepancy {data model : List ℝ} {v : ℝ} (h : discrepancy data model = v)
    (errors : Option (List ℝ)) : value data model errors .cstat = v := by
  unfold discrepancy at h
  unfold value
  cases hv : likelihood? cstatTerm data model with
  | none => simp [hv] at h
  | some w =>
      rw [hv] at h
      exact WithTop.coe_injective h

theorem discrepancy_eq_top_iff {data model : List ℝ} :
    discrepancy data model = ⊤ ↔ ∃ p ∈ data.zip model, 0 < p.1 ∧ p.2 ≤ 0 := by
  have hnone : likelihood? cstatTerm data model = none ↔
      ∃ p ∈ data.zip model, 0 < p.1 ∧ p.2 ≤ 0 := by
    rw [likelihood?, Option.map_eq_none_iff, accumulate_eq_none_iff]
    simp only [impossible_iff]
  rw [← hnone, discrepancy]
  cases likelihood? cstatTerm data model with
  | none => exact iff_of_true rfl rfl
  | some v => exact iff_of_false (WithTop.coe_ne_top) nofun

theorem discrepancy_eq_sum {data model : List ℝ}
    (h : ¬∃ p ∈ data.zip model, 0 < p.1 ∧ p.2 ≤ 0) :
    discrepancy data model =
      ((2 * ((data.zip model).map fun p => contribution p.1 p.2).sum : ℝ) : WithTop ℝ) := by
  have hpossible : ∀ p ∈ data.zip model, impossible p.1 p.2 = false := by
    intro p hp
    rw [Bool.eq_false_iff, ne_eq, impossible_iff]
    exact fun himpossible => h ⟨p, hp, himpossible⟩
  have hsum := accumulate_of_additive (e := id) cstatTerm_eq 0 hpossible
  simp only [id, Prod.mk.eta, List.map_id', zero_add] at hsum
  rw [discrepancy, likelihood?, Scalar.real_zero, hsum, Scalar.real_ofNat]
  rfl

section Bounds

variable {d m : ℝ}

/-- The logarithm lies below its tangent at one. -/
theorem sub_add_mul_log_nonneg (hd : 0 < d) (hm : 0 < m) : 0 ≤ m - d + d * Real.log (d / m) := by
  have htangent : Real.log (m / d) ≤ m / d - 1 := Real.log_le_sub_one_of_pos (div_pos hm hd)
  have hinverse : Real.log (d / m) = -Real.log (m / d) := by
    rw [← Real.log_inv, inv_div]
  have hscaled : d * Real.log (m / d) ≤ m - d := by
    calc d * Real.log (m / d) ≤ d * (m / d - 1) := by gcongr
      _ = m - d := by field_simp
  rw [hinverse]
  linarith

/-- What the least model value that is put into the logarithm may take from a contribution. -/
noncomputable def shortfall (d m : ℝ) : ℝ :=
  if 0 < d ∧ d < Real.exp 1 * leastModel then max m leastModel - m else 0

theorem shortfall_eq_zero (h : leastModel ≤ m ∨ Real.exp 1 * leastModel ≤ d) :
    shortfall d m = 0 := by
  unfold shortfall
  split_ifs with hd
  · rcases h with hm | hlarge
    · rw [max_eq_left hm, sub_self]
    · exact absurd hd.2 (not_lt.mpr hlarge)
  · rfl

/-- A count of `e` times the least model value outweighs what is raised to that. -/
theorem contribution_nonneg_of_large (hm : 0 ≤ m) (hd : Real.exp 1 * leastModel ≤ d)
    (hraised : m < leastModel) : 0 ≤ contribution d m := by
  have hleast := leastModel_pos
  have hpos : 0 < d := lt_of_lt_of_le (by positivity) hd
  have hlog : 1 ≤ Real.log (d / leastModel) := by
    rw [Real.le_log_iff_exp_le (by positivity), le_div_iff₀ hleast]
    exact hd
  have hscaled : d ≤ d * Real.log (d / leastModel) := le_mul_of_one_le_right hpos.le hlog
  rw [contribution, if_pos hpos, max_eq_right hraised.le]
  linarith

theorem neg_shortfall_le_contribution (hd : 0 ≤ d) (hzero : d = 0 → 0 ≤ m)
    (hpossible : 0 < d → 0 < m) : -shortfall d m ≤ contribution d m := by
  rcases hd.eq_or_lt with rfl | hpos
  · simp [shortfall, contribution, hzero]
  · by_cases hlarge : m < leastModel ∧ Real.exp 1 * leastModel ≤ d
    · rw [shortfall_eq_zero (.inr hlarge.2), neg_zero]
      exact contribution_nonneg_of_large (hpossible hpos).le hlarge.2 hlarge.1
    · have hshortfall : shortfall d m = max m leastModel - m := by
        unfold shortfall
        split_ifs with hsmall
        · rfl
        · have hle : leastModel ≤ m := by
            by_contra hlt
            exact hlarge ⟨not_le.mp hlt, not_lt.mp fun hlt => hsmall ⟨hpos, hlt⟩⟩
          rw [max_eq_left hle, sub_self]
      have hmax : 0 < max m leastModel := lt_max_of_lt_right leastModel_pos
      have hgibbs := sub_add_mul_log_nonneg hpos hmax
      rw [hshortfall, contribution, if_pos hpos]
      linarith

theorem contribution_self (hleast : 0 < d → leastModel ≤ d) :
    contribution d d = 0 := by
  unfold contribution
  split_ifs with hpos
  · rw [max_eq_left (hleast hpos), div_self hpos.ne', Real.log_one]
    ring
  · ring

end Bounds

/-- The shortfalls bound the statistic from below wherever it is finite. -/
theorem neg_sum_shortfall_le {points : List (ℝ × ℝ)} (hdata : ∀ p ∈ points, 0 ≤ p.1)
    (hmodel : ∀ p ∈ points, p.1 = 0 → 0 ≤ p.2) (hpossible : ∀ p ∈ points, 0 < p.1 → 0 < p.2) :
    -(points.map fun p => shortfall p.1 p.2).sum ≤
      (points.map fun p => contribution p.1 p.2).sum := by
  rw [List.sum_neg, List.map_map]
  apply List.sum_le_sum
  intro p hp
  exact neg_shortfall_le_contribution (hdata p hp) (hmodel p hp) (hpossible p hp)

theorem sum_shortfall_eq_zero {points : List (ℝ × ℝ)}
    (h : ∀ p ∈ points, 0 < p.1 → leastModel ≤ p.2 ∨ Real.exp 1 * leastModel ≤ p.1) :
    (points.map fun p => shortfall p.1 p.2).sum = 0 := by
  apply List.sum_eq_zero
  intro x hx
  obtain ⟨p, hp, rfl⟩ := List.mem_map.mp hx
  by_cases hpos : 0 < p.1
  · exact shortfall_eq_zero (h p hp hpos)
  · exact if_neg fun hand => hpos hand.1

theorem discrepancy_self {data : List ℝ} (h : ∀ d ∈ data, 0 < d → leastModel ≤ d) :
    discrepancy data data = 0 := by
  have hzip : data.zip data = data.map fun d => (d, d) := by
    simpa using List.zip_map' (l := data) (f := id) (g := id)
  have hpossible : ¬∃ p ∈ data.zip data, 0 < p.1 ∧ p.2 ≤ 0 := by
    rw [hzip]
    rintro ⟨p, hp, hpos, hle⟩
    obtain ⟨d, -, rfl⟩ := List.mem_map.mp hp
    exact absurd hle (not_le.mpr hpos)
  have hsum : ((data.zip data).map fun p => contribution p.1 p.2).sum = 0 := by
    rw [hzip, List.map_map]
    apply List.sum_eq_zero
    intro x hx
    obtain ⟨d, hd, rfl⟩ := List.mem_map.mp hx
    exact contribution_self (h d hd)
  rw [discrepancy_eq_sum hpossible, hsum, mul_zero]
  rfl

/-- For counts from zero up and a model that is not negative where there are none, `cstat` is
infinite exactly where a positive count meets a model that is not positive, and is otherwise not
negative up to the shortfalls. These are at points only where both the count and the model are
small. The data as a model have zero if no positive count is below the least model value; then no
model without a shortfall is lower. -/
theorem discrepancy_bounded_below {data model : List ℝ} (hdata : ∀ d ∈ data, 0 ≤ d)
    (hmodel : ∀ p ∈ data.zip model, p.1 = 0 → 0 ≤ p.2) :
    (∀ (v : ℝ) (errors : Option (List ℝ)), discrepancy data model = v →
      value data model errors .cstat = v) ∧
    (discrepancy data model = ⊤ ↔ ∃ p ∈ data.zip model, 0 < p.1 ∧ p.2 ≤ 0) ∧
    ((-(2 * ((data.zip model).map fun p => shortfall p.1 p.2).sum) : ℝ) : WithTop ℝ) ≤
      discrepancy data model ∧
    ((∀ p ∈ data.zip model, 0 < p.1 → 0 < p.2 →
        leastModel ≤ p.2 ∨ Real.exp 1 * leastModel ≤ p.1) →
      0 ≤ discrepancy data model ∧ ((∀ d ∈ data, 0 < d → leastModel ≤ d) →
        discrepancy data data ≤ discrepancy data model)) ∧
    ((∀ d ∈ data, 0 < d → leastModel ≤ d) → discrepancy data data = 0) := by
  refine ⟨fun v errors h => value_eq_of_discrepancy h errors, ?_⟩
  by_cases hinfinite : ∃ p ∈ data.zip model, 0 < p.1 ∧ p.2 ≤ 0
  · have htop := discrepancy_eq_top_iff.mpr hinfinite
    rw [htop]
    exact ⟨iff_of_true rfl hinfinite, le_top, fun _ => ⟨le_top, fun _ => le_top⟩, discrepancy_self⟩
  · have hpossible : ∀ p ∈ data.zip model, 0 < p.1 → 0 < p.2 := by
      intro p hp hpos
      by_contra hle
      exact hinfinite ⟨p, hp, hpos, not_lt.mp hle⟩
    have hbound := neg_sum_shortfall_le (fun p hp => hdata p.1 (List.of_mem_zip hp).1) hmodel
      hpossible
    have hsum := discrepancy_eq_sum hinfinite
    refine ⟨discrepancy_eq_top_iff, ?_, ?_, discrepancy_self⟩
    · rw [hsum, WithTop.coe_le_coe]
      linarith
    · intro hlarge
      have hnonneg : 0 ≤ discrepancy data model := by
        rw [sum_shortfall_eq_zero fun p hp hpos => hlarge p hp hpos (hpossible p hp hpos)] at hbound
        rw [hsum, ← WithTop.coe_zero, WithTop.coe_le_coe]
        linarith
      refine ⟨hnonneg, fun hself => ?_⟩
      rwa [discrepancy_self hself]

/-- A count that is nearly met, none, and a small one with a smaller model. -/
theorem discrepancy_of_mixed :
    let data : List ℝ := [3, 0, leastModel]
    let model : List ℝ := [4, 1, leastModel / 10]
    (∀ d ∈ data, 0 ≤ d) ∧ (∀ p ∈ data.zip model, p.1 = 0 → 0 ≤ p.2) ∧
      ((-(9 / 5 * leastModel) : ℝ) : WithTop ℝ) ≤ discrepancy data model ∧
      discrepancy data data = 0 := by
  intro data model
  have hpos := leastModel_pos
  have hone := leastModel_le_one
  have hdata : ∀ d ∈ data, 0 ≤ d := by
    simp only [data, List.forall_mem_cons, List.not_mem_nil, false_imp_iff, implies_true]
    refine ⟨by norm_num, le_rfl, hpos.le, trivial⟩
  have hmodel : ∀ p ∈ data.zip model, p.1 = 0 → 0 ≤ p.2 := by
    have hnonneg : (0 : ℝ) ≤ leastModel / 10 := by positivity
    simp [data, model, hnonneg]
  have hleast : ∀ d ∈ data, 0 < d → leastModel ≤ d := by
    simp only [data, List.forall_mem_cons, List.not_mem_nil, false_imp_iff, implies_true]
    exact ⟨fun _ => by linarith, fun h => absurd h (lt_irrefl 0), fun _ => le_rfl, trivial⟩
  have hsmall : shortfall leastModel (leastModel / 10) = 9 / 10 * leastModel := by
    have hexp : leastModel < Real.exp 1 * leastModel :=
      lt_mul_of_one_lt_left hpos (Real.one_lt_exp_iff.mpr one_pos)
    rw [shortfall, if_pos ⟨hpos, hexp⟩, max_eq_right (by linarith)]
    ring
  have hsum : ((data.zip model).map fun p => shortfall p.1 p.2).sum = 9 / 10 * leastModel := by
    simp only [data, model, List.zip_cons_cons, List.zip_nil_right, List.map_cons, List.map_nil,
      List.sum_cons, List.sum_nil, hsmall]
    rw [shortfall_eq_zero (.inl (by linarith)), shortfall_eq_zero (.inl hone)]
    ring
  obtain ⟨-, -, hbound, -, hself⟩ := discrepancy_bounded_below hdata hmodel
  rw [hsum] at hbound
  refine ⟨hdata, hmodel, ?_, hself hleast⟩
  convert hbound using 2
  ring

/-- A single point that is possible contributes twice. -/
theorem discrepancy_singleton {d m : ℝ} (h : 0 < d → 0 < m) :
    discrepancy [d] [m] = ((2 * contribution d m : ℝ) : WithTop ℝ) := by
  rw [discrepancy_eq_sum]
  · simp
  · simpa using h

/-- A model that is below the least value has less than the data themselves, and so has a negative
one where there are no counts. -/
theorem discrepancy_negative :
    discrepancy [1 / 10 ^ 300] [1 / 10 ^ 301] = ((-(18 / 10 ^ 301) : ℝ) : WithTop ℝ) ∧
    discrepancy [0] [-5] = ((-10 : ℝ) : WithTop ℝ) ∧
    ¬∀ data model : List ℝ, (∀ d ∈ data, 0 ≤ d) → model.length = data.length →
      0 ≤ discrepancy data model := by
  have hsmall : discrepancy [1 / 10 ^ 300] [1 / 10 ^ 301] =
      ((-(18 / 10 ^ 301) : ℝ) : WithTop ℝ) := by
    have hpos := leastModel_pos
    have htenth : (1 / 10 ^ 301 : ℝ) = leastModel / 10 := by
      rw [leastModel_eq, pow_succ, div_div]
    have hfew : (18 / 10 ^ 301 : ℝ) = 18 * (leastModel / 10) := by
      rw [← htenth, mul_one_div]
    rw [← leastModel_eq, htenth, hfew, discrepancy_singleton fun _ => by positivity, contribution,
      if_pos hpos, max_eq_right (by linarith), div_self hpos.ne', Real.log_one]
    congr 1
    ring
  have hnegative : discrepancy [0] [-5] = ((-10 : ℝ) : WithTop ℝ) := by
    rw [discrepancy_singleton fun h => absurd h (lt_irrefl 0), contribution, if_neg (lt_irrefl 0)]
    norm_num
  refine ⟨hsmall, hnegative, fun hall => ?_⟩
  have hle := hall [0] [-5] (by simp) rfl
  rw [hnegative, ← WithTop.coe_zero, WithTop.coe_le_coe] at hle
  norm_num at hle

end ParameterScan.Statistic
