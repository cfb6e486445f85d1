import ParameterScan.Proofs.Fit.Interface
import ParameterScan.Proofs.Scan.Delivery
import ParameterScan.Proofs.Scan.Pointwise

/-!
# When a projection fits again

A projection decides before its run whether there is anything to fit: it compares the number of
thawed parameters with the number of its axes. That is the number of thawed parameters other than
the targets, compared with zero, as long as the targets are distinct. A target that is named more
than once counts once among the thawed parameters and once for each of its axes, and the comparison
comes out wrong when the other thawed parameters are no more than the repetitions. Over one
parameter there is nothing to repeat. Over two there is one repetition, when both names are the
same, and then a single other thawed parameter is not fitted.

All of this holds of any fit that leaves its parameters alone where it says so.
-/
namespace ParameterScan

section Runs

variable {φ α : Type} [Scalar α] [Fit φ α] {n : Nat}

/-- How many parameters other than those at the given places are thawed. -/
def Fit.otherCount (fit : φ) (targets : List Nat) : Nat :=
  (Parameters.otherIndices targets (parameters fit)).length

namespace Evaluator

/-- The statistic at a point after the thawed parameters have been fitted there. -/
def fittedValue (e : Evaluator α n) (held : φ) (p : Vector α n) : Except (FitError α) α :=
  match assignAll held (e.targets.toList.zip (e.grid.toLinear p).toList) with
  | (_, .error error) => .error error
  | (fit, .ok ()) => (Fit.minimise fit true).2.map FitResult.stat

/-- The statistic at a point with all other parameters where they are. -/
def computedValue (e : Evaluator α n) (held : φ) (p : Vector α n) : Except (FitError α) α :=
  match assignAll held (e.targets.toList.zip (e.grid.toLinear p).toList) with
  | (_, .error error) => .error error
  | (fit, .ok ()) => Fit.calcStat fit

theorem eval_eq (e : Evaluator α n) (held : φ) (p : Vector α n) :
    (e.eval held p).2 = if e.refits then e.fittedValue held p else e.computedValue held p := by
  unfold eval fittedValue computedValue
  generalize assignAll held (e.targets.toList.zip (e.grid.toLinear p).toList) = assigned
  obtain ⟨fit, outcome⟩ := assigned
  cases outcome with
  | error error => simp only [ite_self]
  | ok _ =>
      simp only [read]
      split_ifs <;> rfl

end Evaluator

namespace Plan

/-- Every point of the grid is evaluated with the thawed parameters fitted there, or every point is
evaluated without. -/
structure RunsWith (plan : Plan α n) (fit : φ) (refits : Bool) : Prop where
  refits_eq : (plan.evaluator fit).refits = refits
  outcome_eq : ∀ (workers : Option Nat) (refusal : PoolRefusal),
    (plan.execute fit workers refusal).2 =
      match refusal.reason workers with
      | some reason => .error (.workerPool reason)
      | none =>
          (plan.grid.mesh.mapM fun p =>
            if refits then (plan.evaluator fit).fittedValue (plan.heldFit fit) p
            else (plan.evaluator fit).computedValue (plan.heldFit fit) p).mapError .fit

theorem runsWith_evaluator (plan : Plan α n) (fit : φ) :
    plan.RunsWith fit (plan.evaluator fit).refits := by
  refine ⟨rfl, fun workers refusal => ?_⟩
  have hvalue : Pool.fresh (plan.evaluator fit).eval (plan.heldFit fit) = fun p =>
      if (plan.evaluator fit).refits then (plan.evaluator fit).fittedValue (plan.heldFit fit) p
      else (plan.evaluator fit).computedValue (plan.heldFit fit) p :=
    funext fun p => Evaluator.eval_eq (plan.evaluator fit) (plan.heldFit fit) p
  rw [← hvalue, ← Pool.parallelMap_eq_mapM _ _ workers]
  rfl

variable [Fit.Lawful φ] {fit after : φ} {context : String} {req : GridRequest α n} {fast : Bool}
  {plan : Plan α n} {names : Vector String n}

/-- A projection fits again when the other thawed parameters outnumber the repeated targets. -/
theorem refits_iff_lt (h : prepare fit names .projection context req fast = (after, .ok plan)) :
    (plan.evaluator after).refits = true ↔
      n < plan.targets.toList.dedup.length + Fit.otherCount fit plan.targets.toList := by
  obtain ⟨hcheck, -, hmode, -⟩ := prepare_eq_ok h
  have hparameters := parameters_prepare fit names .projection context req fast
  rw [h] at hparameters
  have hcount : Fit.thawedCount after =
      plan.targets.toList.dedup.length + Fit.otherCount fit plan.targets.toList := by
    rw [Fit.thawedCount, hparameters]
    exact Parameters.thawedCount_eq_add (found_of_check hcheck).2
  simp only [evaluator, Evaluator.make, hmode, hcount, decide_true, Bool.true_and,
    decide_eq_true_eq]

/-- Where the targets are distinct, a projection fits again when another parameter is thawed. -/
theorem refits_iff_of_nodup
    (h : prepare fit names .projection context req fast = (after, .ok plan))
    (hnames : names.toList.Nodup) :
    (plan.evaluator after).refits = true ↔ 0 < Fit.otherCount fit plan.targets.toList := by
  have hnodup := nodup_of_found (found_of_check (prepare_eq_ok h).1).1 hnames
  rw [refits_iff_lt h, hnodup.dedup, Vector.length_toList]
  omega

end Plan

/-- Over one parameter a projection fits again exactly when another one is thawed. Over two it does
so unless they are the same one and a single other one is thawed. -/
theorem projection_refits_iff [Fit.Lawful φ] {fit after : φ} {context : String} {fast : Bool} :
    (∀ (req : GridRequest α 1) (name : String) (plan : Plan α 1),
      Plan.prepare fit #v[name] .projection context req fast = (after, .ok plan) →
      ∃ refits, plan.RunsWith after refits ∧
        (refits = true ↔ 0 < Fit.otherCount fit plan.targets.toList)) ∧
    ∀ (req : GridRequest α 2) (name0 name1 : String) (plan : Plan α 2),
      Plan.prepare fit #v[name0, name1] .projection context req fast = (after, .ok plan) →
      ∃ refits, plan.RunsWith after refits ∧
        ((refits = true ↔ 0 < Fit.otherCount fit plan.targets.toList) ↔
          ¬(name0 = name1 ∧ Fit.otherCount fit plan.targets.toList = 1)) := by
  refine ⟨?_, ?_⟩
  · intro req name plan h
    exact ⟨_, plan.runsWith_evaluator after, Plan.refits_iff_of_nodup h (by simp)⟩
  · intro req name0 name1 plan h
    refine ⟨_, plan.runsWith_evaluator after, ?_⟩
    by_cases hnames : name0 = name1
    · have hfound := (Plan.found_of_check (Plan.prepare_eq_ok h).1).1
      rw [toList_eq_two plan.targets] at hfound
      subst hnames
      simp only [Vector.toList_mk, List.map_cons, List.map_nil, List.cons.injEq, and_true]
        at hfound
      have htargets : plan.targets[0] = plan.targets[1] :=
        Option.some.inj (hfound.1.symm.trans hfound.2)
      have hdedup : plan.targets.toList.dedup.length = 1 := by
        rw [toList_eq_two plan.targets, htargets]
        simp
      rw [Plan.refits_iff_lt h, hdedup]
      simp only [true_and]
      omega
    · have hrefits := Plan.refits_iff_of_nodup h (by simpa using hnames)
      simp only [hrefits, hnames, false_and, not_false_eq_true]

end Runs

/-- A straight line to be put through a single point, which any value of the first parameter leaves
possible. -/
def looseLine : CurveFit Float where
  data := { name := "point", x := [1], y := [1] }
  model :=
    { name := "line"
      parameters := [⟨"c0", 1, 0, 4, false⟩, ⟨"c1", 2, -4, 4, false⟩]
      curve := fun values x => values.getD 0 0 + values.getD 1 0 * x }
  stat := .chi2
  config := { tolerance := 0 }

/-- Both ends of one range on all axes. -/
def corners (n : Nat) : GridRequest Float n where
  lower := some (.replicate n 0)
  upper := some (.replicate n 2)
  layout := .replicate n (.count 2)
  factor := 1
  log := .replicate n false

/-- The line is fitted again when it is projected over one of its parameters, and not when it is
projected over both. -/
theorem looseLine_refits :
    ∃ (plan : Plan Float 1) (plan' : Plan Float 2),
      Plan.prepare looseLine #v["c0"] .projection "" (corners 1) true = (looseLine, .ok plan) ∧
      Plan.prepare looseLine #v["c0", "c1"] .projection "" (corners 2) true =
        (looseLine, .ok plan') ∧
      plan.RunsWith looseLine true ∧ plan'.RunsWith looseLine false := by
  obtain ⟨plan, hplan, hother⟩ := exists_of_toOption_any
    (x := (Plan.prepare looseLine #v["c0"] .projection "" (corners 1) true).2)
    (p := fun plan => Fit.otherCount looseLine plan.targets.toList == 1) (by decide +kernel)
  obtain ⟨plan', hplan', hother'⟩ := exists_of_toOption_any
    (x := (Plan.prepare looseLine #v["c0", "c1"] .projection "" (corners 2) true).2)
    (p := fun plan => Fit.otherCount looseLine plan.targets.toList == 0) (by decide +kernel)
  have hprepare : Plan.prepare looseLine #v["c0"] .projection "" (corners 1) true =
      (looseLine, .ok plan) := Prod.ext (Plan.prepare_fst looseLine _ _ _ _ _) hplan
  have hprepare' : Plan.prepare looseLine #v["c0", "c1"] .projection "" (corners 2) true =
      (looseLine, .ok plan') := Prod.ext (Plan.prepare_fst looseLine _ _ _ _ _) hplan'
  obtain ⟨refits, hruns, hrefits⟩ := projection_refits_iff.1 _ _ _ hprepare
  obtain ⟨refits', hruns', hrefits'⟩ := projection_refits_iff.2 _ _ _ _ hprepare'
  rw [eq_of_beq hother] at hrefits
  rw [eq_of_beq hother'] at hrefits'
  obtain rfl : refits = true := hrefits.mpr Nat.one_pos
  obtain rfl : refits' = false := by simpa using hrefits'
  exact ⟨plan, plan', hprepare, hprepare', hruns, hruns'⟩

/-- Projected over the same parameter twice it is not fitted again although the other one is thawed:
the run reports the statistic next to the point that the line could go through. -/
theorem looseLine_not_refitted :
    ∃ plan : Plan Float 2,
      (Plan.prepare looseLine #v["c0", "c0"] .projection "" (corners 2) true).2 = .ok plan ∧
      Fit.otherCount looseLine plan.targets.toList = 1 ∧
      (plan.execute looseLine none).2.toOption = some [1, 1, 9, 9] ∧
      ((plan.evaluator looseLine).fittedValue (plan.heldFit looseLine)
        (plan.grid.point 0)).toOption = some 0 := by
  obtain ⟨plan, hplan, hfacts⟩ := exists_of_toOption_any
    (x := (Plan.prepare looseLine #v["c0", "c0"] .projection "" (corners 2) true).2)
    (p := fun plan => Fit.otherCount looseLine plan.targets.toList = 1 ∧
      (plan.execute looseLine none).2.toOption = some [1, 1, 9, 9] ∧
      ((plan.evaluator looseLine).fittedValue (plan.heldFit looseLine)
        (plan.grid.point 0)).toOption = some 0) (by decide +kernel)
  exact ⟨plan, hplan, of_decide_eq_true hfacts⟩

end ParameterScan
