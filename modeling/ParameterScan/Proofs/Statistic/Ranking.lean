import ParameterScan.Proofs.Scalar.Extended
import ParameterScan.Proofs.Statistic.Discrepancy

/-!
# The two Poisson statistics rank models alike

Where `cash` and `cstat` are finite they differ by twice the sum of `d ln d - d` over the positive
counts, whatever the model is: point by point the two contributions differ by that, also where the
model value is raised inside the logarithm and where there are no counts. They are infinite for the
same models. So no comparison of models tells the one statistic from the other.

Counts and model values are real numbers, and infinity is a value of the statistics. A negative
count is not covered: there the difference depends on the model.
-/
namespace ParameterScan.Statistic

open scoped Exact

open Extended (real)

theorem leastModel_real : (leastModel : Extended) = real leastModel := rfl

theorem impossible_real_iff {d m : ℝ} : impossible (real d) (real m) = true ↔ 0 < d ∧ m ≤ 0 := by
  simp [impossible, Extended.zero_eq, and_comm]

/-- What a point adds to half of `cash`. -/
noncomputable def cashContribution (d m : ℝ) : ℝ := m - d * Real.log (max m leastModel)

theorem cashTerm_real (total d m : ℝ) :
    cashTerm (real total) (real d) (real m) = real (total + cashContribution d m) := by
  have hmax : 0 < max m leastModel := lt_max_of_lt_right leastModel_pos
  rw [cashTerm, leastModel_real, Extended.larger_real, Extended.ln_real hmax, Extended.mul_real,
    Extended.sub_real, Extended.add_real, cashContribution]

theorem cstatTerm_real (total d m : ℝ) :
    cstatTerm (real total) (real d) (real m) = real (total + contribution d m) := by
  have hmax : 0 < max m leastModel := lt_max_of_lt_right leastModel_pos
  simp only [cstatTerm, leastModel_real, Extended.larger_real, Extended.sub_real,
    Extended.add_real, Extended.zero_eq, Extended.real_lt_real, contribution]
  split_ifs with hd
  · rw [Extended.div_real _ hmax.ne', Extended.ln_real (div_pos hd hmax), Extended.mul_real,
      Extended.add_real, add_assoc]
  · rw [add_zero]

section Likelihood

variable {term : Extended → Extended → Extended → Extended} {data model : List ℝ}

theorem zip_map_real : (data.map real).zip (model.map real) =
    (data.zip model).map fun p => (real p.1, real p.2) :=
  List.zip_map ..

/-- A likelihood is infinite for models that are impossible. -/
theorem likelihood_eq_none_iff :
    likelihood? term (data.map real) (model.map real) = none ↔
      ∃ p ∈ data.zip model, 0 < p.1 ∧ p.2 ≤ 0 := by
  simp [likelihood?, accumulate_eq_none_iff, zip_map_real, impossible_real_iff]

theorem likelihood_eq_sum {f : ℝ → ℝ → ℝ}
    (hterm : ∀ total d m, term (real total) (real d) (real m) = real (total + f d m))
    (h : ¬∃ p ∈ data.zip model, 0 < p.1 ∧ p.2 ≤ 0) :
    likelihood? term (data.map real) (model.map real) =
      some (real (2 * ((data.zip model).map fun p => f p.1 p.2).sum)) := by
  have hpossible : ∀ p ∈ data.zip model, impossible (real p.1) (real p.2) = false := by
    intro p hp
    rw [Bool.eq_false_iff, ne_eq, impossible_real_iff]
    exact fun himpossible => h ⟨p, hp, himpossible⟩
  rw [likelihood?, zip_map_real, Extended.zero_eq, accumulate_of_additive hterm 0 hpossible,
    zero_add]
  rfl

theorem likelihood_eq_infinity_iff {f : ℝ → ℝ → ℝ}
    (hterm : ∀ total d m, term (real total) (real d) (real m) = real (total + f d m)) :
    (likelihood? term (data.map real) (model.map real)).getD Scalar.infinity = Scalar.infinity ↔
      ∃ p ∈ data.zip model, 0 < p.1 ∧ p.2 ≤ 0 := by
  by_cases h : ∃ p ∈ data.zip model, 0 < p.1 ∧ p.2 ≤ 0
  · refine iff_of_true ?_ h
    rw [likelihood_eq_none_iff.mpr h, Option.getD_none]
  · refine iff_of_false ?_ h
    rw [likelihood_eq_sum hterm h, Option.getD_some]
    exact nofun

end Likelihood

/-- What `cstat` takes from a count alone. -/
noncomputable def surplus (d : ℝ) : ℝ := if 0 < d then d * Real.log d - d else 0

theorem contribution_eq {d : ℝ} (hd : 0 ≤ d) (m : ℝ) :
    contribution d m = cashContribution d m + surplus d := by
  have hmax : 0 < max m leastModel := lt_max_of_lt_right leastModel_pos
  unfold contribution cashContribution surplus
  split_ifs with hpos
  · rw [Real.log_div hpos.ne' hmax.ne']
    ring
  · obtain rfl : d = 0 := hd.antisymm' (not_lt.mp hpos)
    ring

/-- The sum of the contributions to `cstat`, with the part of the counts taken out. -/
theorem sum_contribution {data model : List ℝ} (hdata : ∀ d ∈ data, 0 ≤ d)
    (hlength : model.length = data.length) :
    ((data.zip model).map fun p => contribution p.1 p.2).sum =
      ((data.zip model).map fun p => cashContribution p.1 p.2).sum + (data.map surplus).sum := by
  have hpoints : (data.zip model).map (fun p => contribution p.1 p.2) =
      (data.zip model).map fun p => cashContribution p.1 p.2 + surplus p.1 :=
    List.map_congr_left fun p hp => contribution_eq (hdata p.1 (List.of_mem_zip hp).1) p.2
  have hcounts : (data.zip model).map (fun p => surplus p.1) = data.map surplus := by
    have hmap := List.map_map (f := Prod.fst) (g := surplus) (l := data.zip model)
    rw [List.map_fst_zip hlength.ge] at hmap
    exact hmap.symm
  rw [hpoints, List.sum_map_add, hcounts]

/-- The difference of the two statistics. -/
noncomputable def offset (data : List ℝ) : ℝ := 2 * (data.map surplus).sum

section Values

variable {data model : List ℝ}

/-- Where `cash` is infinite, so is the sum. -/
theorem cstat_eq_cash_add_offset (hdata : ∀ d ∈ data, 0 ≤ d) (hlength : model.length = data.length)
    (errors : Option (List Extended)) :
    value (data.map real) (model.map real) errors .cstat =
      value (data.map real) (model.map real) errors .cash + real (offset data) := by
  by_cases h : ∃ p ∈ data.zip model, 0 < p.1 ∧ p.2 ≤ 0
  · rw [value, value, likelihood_eq_none_iff.mpr h, likelihood_eq_none_iff.mpr h]
    rfl
  · rw [value, value, likelihood_eq_sum cstatTerm_real h, likelihood_eq_sum cashTerm_real h,
      Option.getD_some, Option.getD_some, Extended.add_real, sum_contribution hdata hlength, offset,
      mul_add]

end Values

/-- For counts from zero up, `cash` is infinite exactly where `cstat` is, at models that are not
positive at a positive count; otherwise the two differ by the offset, which is the same for all
models. So they put any two models in the same order, and of any set of models the best are the same
by the one and by the other. -/
theorem cash_cstat_rank_alike {data : List ℝ} (hdata : ∀ d ∈ data, 0 ≤ d)
    (errors : Option (List Extended)) :
    let cash := fun model : List ℝ => value (data.map real) (model.map real) errors .cash
    let cstat := fun model : List ℝ => value (data.map real) (model.map real) errors .cstat
    (∀ model, model.length = data.length →
      (cash model = Scalar.infinity ↔ cstat model = Scalar.infinity) ∧
      (cash model = Scalar.infinity ↔ ∃ p ∈ data.zip model, 0 < p.1 ∧ p.2 ≤ 0) ∧
      (cash model ≠ Scalar.infinity → ∃ x y, cash model = real x ∧ cstat model = real y ∧
        y - x = 2 * (data.map fun d => if 0 < d then d * Real.log d - d else 0).sum)) ∧
    (∀ model model', model.length = data.length → model'.length = data.length →
      (cash model ≤ cash model' ↔ cstat model ≤ cstat model') ∧
      (cash model < cash model' ↔ cstat model < cstat model')) ∧
    ∀ models : Set (List ℝ), (∀ model ∈ models, model.length = data.length) →
      ∀ best ∈ models,
        (∀ model ∈ models, cash best ≤ cash model) ↔
          ∀ model ∈ models, cstat best ≤ cstat model := by
  intro cash cstat
  have hshift : ∀ model, model.length = data.length →
      cstat model = cash model + real (offset data) :=
    fun model hlength => cstat_eq_cash_add_offset hdata hlength errors
  have hle : ∀ model model', model.length = data.length → model'.length = data.length →
      (cash model ≤ cash model' ↔ cstat model ≤ cstat model') := by
    intro model model' hlength hlength'
    rw [hshift model hlength, hshift model' hlength', Extended.add_real_le_add_real]
  refine ⟨fun model hlength => ?_, fun model model' hlength hlength' => ⟨?_, ?_⟩, ?_⟩
  · have hcash : cash model = Scalar.infinity ↔ ∃ p ∈ data.zip model, 0 < p.1 ∧ p.2 ≤ 0 :=
      likelihood_eq_infinity_iff cashTerm_real
    refine ⟨hcash.trans (likelihood_eq_infinity_iff cstatTerm_real).symm, hcash, fun hfinite => ?_⟩
    have hvalue : cash model = real _ := congrArg (Option.getD · Scalar.infinity)
      (likelihood_eq_sum cashTerm_real fun h => hfinite (hcash.mpr h))
    refine ⟨_, _, hvalue, ?_, add_sub_cancel_left _ (offset data)⟩
    rw [hshift model hlength, hvalue, Extended.add_real]
  · exact hle model model' hlength hlength'
  · rw [hshift model hlength, hshift model' hlength', Extended.add_real_lt_add_real]
  · intro models hmodels best hbest
    exact forall₂_congr fun model hmodel =>
      hle best model (hmodels best hbest) (hmodels model hmodel)

/-- A count of two and none, with a model that is negative where there are none and with one that is
impossible. -/
theorem twoAndNone_rank_alike :
    let data : List ℝ := [2, 0]
    let cash := fun model : List ℝ => value (data.map real) (model.map real) none .cash
    let cstat := fun model : List ℝ => value (data.map real) (model.map real) none .cstat
    (∀ d ∈ data, 0 ≤ d) ∧
      (∃ x y, cash [1, -5] = real x ∧ cstat [1, -5] = real y ∧ y - x = 4 * Real.log 2 - 4) ∧
      cash [-1, 5] = Scalar.infinity ∧ cstat [-1, 5] = Scalar.infinity := by
  intro data cash cstat
  have hdata : ∀ d ∈ data, 0 ≤ d := by simp [data]
  obtain ⟨hvalues, -, -⟩ := cash_cstat_rank_alike hdata none
  obtain ⟨-, hcash, hfinite⟩ := hvalues [1, -5] rfl
  obtain ⟨hsame, hcash', -⟩ := hvalues [-1, 5] rfl
  have hinfinite : cash [-1, 5] = Scalar.infinity := hcash'.mpr (by simp [data])
  refine ⟨hdata, ?_, hinfinite, hsame.mp hinfinite⟩
  have hpossible : ¬∃ p ∈ data.zip ([1, -5] : List ℝ), 0 < p.1 ∧ p.2 ≤ 0 := by norm_num [data]
  obtain ⟨x, y, hx, hy, hdifference⟩ := hfinite fun h => hpossible (hcash.mp h)
  refine ⟨x, y, hx, hy, hdifference.trans ?_⟩
  simp [data]
  ring

end ParameterScan.Statistic
