import ParameterScan.Proofs.Fit.Search
import ParameterScan.Proofs.Scan.Refit
import ParameterScan.Proofs.Scan.Refusal

/-!
# Which optimizer a scan fits with

Damped least squares cannot be used with a likelihood, and a minimisation that is asked to says
so. Nothing else in a fit does. A scan minimises at the points of a projection with something to
fit, and there with the optimizer that was chosen: a fast one suits the statistic, so that the
refusal is left to scans that are told to keep the optimizer of the fit. The estimate that bounds
are derived from is by covariance and does not minimise, whichever estimator the fit has.
-/
namespace ParameterScan

/-- An error that has nothing to do with the choice of the optimizer. -/
def FitError.Supported {α : Type} : FitError α → Prop
  | .unsupportedMethod _ _ => False
  | _ => True

/-- An error of assigning values to parameters. -/
def FitError.OfAssignment {α : Type} : FitError α → Prop
  | .outOfLimits _ _ _ _ | .thawedLength _ _ => True
  | _ => False

theorem FitError.OfAssignment.supported {α : Type} {e : FitError α} (h : e.OfAssignment) :
    e.Supported := by
  cases e <;> trivial

/-- The optimizer cannot be used with the statistic. -/
def CurveFit.Mismatched {α : Type} (fit : CurveFit α) : Prop :=
  fit.method = .levmar ∧ fit.stat.isLikelihood = true

/-- The statistic after values have been assigned and the thawed parameters fitted with the given
optimizer. -/
def CurveFit.fittedWith {α : Type} [Scalar α] (held : CurveFit α) (m : Optimizer)
    (writes : List (Nat × α)) : Except (FitError α) α :=
  match Evaluator.assignAll held writes with
  | (_, .error error) => .error error
  | (written, .ok ()) => ((Fit.withMethod written m).minimise true).2.map FitResult.stat

section Choice

/-- A fast scan has the optimizer that suits the statistic, whether or not it was exchanged. -/
theorem chooseMethod_fast (current : Optimizer) (stat : Statistic) (context : String) :
    (chooseMethod current stat true context).1.getD current = stat.suitedOptimizer := by
  simp only [chooseMethod, Bool.not_true, Bool.false_or, decide_eq_true_eq]
  split_ifs with h
  · exact h
  · rfl

theorem suitedOptimizer_of_isLikelihood {stat : Statistic} (h : stat.isLikelihood = true) :
    stat.suitedOptimizer ≠ .levmar := by
  simp [Statistic.suitedOptimizer, h]

end Choice

variable {α : Type} [Scalar α] {n : Nat}

section Fits

variable {fit : CurveFit α}

theorem Parameter.fails_assign (p : Parameter α) (x : α) :
    Fails FitError.OfAssignment (p.assign x) := by
  unfold assign
  split_ifs
  · exact fails_ok _
  · exact fails_error_iff.mpr trivial

theorem Parameters.fails_assignEach (ps : List (Parameter α)) (xs : List α) :
    Fails FitError.OfAssignment (assignEach ps xs).2 := by
  fun_induction assignEach ps xs with
  | case1 p ps x xs _ _ ih => exact ih
  | case2 p ps x xs _ q _ _ ih => exact ih
  | case3 p ps x xs _ e he =>
      exact fails_error_iff.mpr (p.fails_assign x e he)
  | case4 => exact fails_ok ()

theorem Parameters.fails_assignThawed (ps : List (Parameter α)) (xs : List α) :
    Fails FitError.OfAssignment (assignThawed ps xs).2 := by
  unfold assignThawed
  split_ifs
  · exact fails_assignEach ps xs
  · exact fails_error_iff.mpr trivial

theorem Parameters.fails_writeAll (ps : List (Parameter α)) (writes : List (Nat × α)) :
    Fails FitError.OfAssignment (writeAll ps writes).2 := by
  induction writes generalizing ps with
  | nil => exact fails_ok ()
  | cons write rest ih =>
      obtain ⟨i, x⟩ := write
      unfold writeAll
      cases h : (ps.getD i default).assign x with
      | ok p => exact ih _
      | error e => exact fails_error_iff.mpr (Parameter.fails_assign _ x e h)

namespace CurveFit

theorem fails_search (fit : CurveFit α) :
    Fails (fun e => e.Supported ∨ fit.Mismatched) fit.search := by
  unfold search
  simp only
  split
  next hmethod =>
    split_ifs with hlikelihood
    · exact fails_error_iff.mpr (.inr ⟨hmethod, hlikelihood⟩)
    · split
      · exact fails_ok _
      · exact fails_error_iff.mpr (.inl trivial)
  · exact fails_ok _
  · exact fails_ok _

theorem fails_minimum (fit : CurveFit α) :
    Fails (fun e => e.Supported ∨ fit.Mismatched) fit.minimum := by
  have hsearch := fit.fails_search
  rw [minimum_eq]
  split_ifs
  · exact fails_error_iff.mpr (.inl trivial)
  · cases h : fit.search with
    | error e => exact fails_error_iff.mpr (hsearch e h)
    | ok m =>
        simp only
        split_ifs
        · exact fails_error_iff.mpr (.inl trivial)
        · exact fails_error_iff.mpr (.inl trivial)
        · exact fails_ok m

theorem fails_minimise (fit : CurveFit α) (reuse : Bool) :
    Fails (fun e => e.Supported ∨ fit.Mismatched) (fit.minimise reuse).2 := by
  have hstarted : (fit.started reuse).Mismatched ↔ fit.Mismatched := by cases reuse <;> rfl
  have hminimum := (fit.started reuse).fails_minimum
  rw [minimise_eq]
  cases h : (fit.started reuse).minimum with
  | error e => exact fails_error_iff.mpr ((hminimum e h).imp_right hstarted.mp)
  | ok m =>
      have hassign := Parameters.fails_assignThawed fit.parameters m.point
      exact (hassign.mono fun _ h => .inl h.supported).map _

end CurveFit

/-- At a point only a fit that is minimised there can refuse its optimizer. -/
theorem Evaluator.fails_eval (e : Evaluator α n) (held : CurveFit α) (p : Vector α n) :
    Fails (fun error => error.Supported ∨ e.refits = true ∧ held.Mismatched)
      (e.eval held p).2 := by
  have hwrite := Parameters.fails_writeAll held.parameters (e.writes p)
  rw [eval_snd]
  cases h : (Parameters.writeAll held.parameters (e.writes p)).2 with
  | error error => exact fails_error_iff.mpr (.inl (hwrite error h).supported)
  | ok _ =>
      simp only [read]
      split_ifs with hrefits
      · refine Fails.map ((CurveFit.fails_minimise _ true).mono fun error herror => ?_) _
        exact herror.imp_right fun hmismatched => ⟨hrefits, hmismatched⟩
      · refine (CurveFit.fails_calcStat _).mono ?_
        rintro _ ⟨value, -, rfl⟩
        exact .inl trivial

end Fits

namespace Plan

variable {fit : CurveFit α}

/-- A held fit has the optimizer that was put in, if there was one. -/
theorem heldFit_eq (plan : Plan α n) (fit : CurveFit α) :
    (plan.heldFit fit).method = plan.method.getD fit.method ∧
      (plan.heldFit fit).stat = fit.stat := by
  obtain ⟨ps, hps, -⟩ := Held.exists_freezeFor plan.mode plan.targets.toList
    (Fit.withMethod fit (plan.method.getD (Fit.method fit)))
  unfold heldFit Held.acquire
  rw [hps]
  exact ⟨rfl, rfl⟩

/-- A run that ends because an optimizer was refused, in whatever order it took the points, is one of
a projection that fits again, with an optimizer that does not suit the statistic. -/
theorem unsupported_of_delivers {names : Vector String n} {mode : ScanMode} {context : String}
    {req : GridRequest α n} {fast : Bool} {plan : Plan α n} {workers : Nat} {m : Optimizer}
    {s : Statistic} (hplan : (prepare fit names mode context req fast).2 = .ok plan)
    (h : plan.Delivers fit workers (.error (.unsupportedMethod m s))) :
    mode = .projection ∧ fast = false ∧ fit.Mismatched ∧
      fit.othersThawed plan.targets.toList = true := by
  obtain ⟨hrefits, hmethod, hlikelihood⟩ :=
    (h.fails ((plan.evaluator fit).fails_eval (plan.heldFit fit)) _ rfl).resolve_left id
  have hprepare : prepare fit names mode context req fast = (fit, .ok plan) :=
    Prod.ext (prepare_fst fit names mode context req fast) hplan
  obtain ⟨hcheck, -, hmode, hchosen⟩ := prepare_eq_ok hprepare
  obtain ⟨hheld, hstat⟩ := heldFit_eq plan fit
  obtain rfl : mode = .projection := hmode.symm.trans (mode_of_refits hrefits)
  rw [hstat] at hlikelihood
  rw [hheld, hchosen] at hmethod
  have hslow : fast = false := by
    cases fast with
    | false => rfl
    | true =>
        have hsuited := chooseMethod_fast fit.method fit.stat (context ++ " plot")
        exact absurd (hsuited.symm.trans hmethod) (suitedOptimizer_of_isLikelihood hlikelihood)
  subst hslow
  refine ⟨rfl, rfl, ⟨hmethod, hlikelihood⟩, ?_⟩
  -- More thawed parameters than axes are more than the targets, repeated or not.
  have hlt := (refits_iff_lt hprepare).mp hrefits
  have hdedup : plan.targets.toList.dedup.length ≤ n := by
    simpa using (List.dedup_sublist plan.targets.toList).length_le
  have hpos : 0 < Fit.otherCount fit plan.targets.toList := by omega
  obtain ⟨j, hj⟩ := List.exists_mem_of_length_pos hpos
  exact othersThawed_iff.mpr ⟨j, Parameters.mem_otherIndices.mp hj⟩

/-- At every point that is fitted again, the value is that of a minimisation with the optimizer that
was chosen for the scan. -/
theorem eval_eq_fittedWith {names : Vector String n} {context : String}
    {req : GridRequest α n} {fast : Bool} {plan : Plan α n}
    (hplan : (prepare fit names .projection context req fast).2 = .ok plan)
    (hrefits : (plan.evaluator fit).refits = true) (p : Vector α n) :
    ((plan.evaluator fit).eval (plan.heldFit fit) p).2 =
      (plan.heldFit fit).fittedWith (fit.scanMethod fast) ((plan.evaluator fit).writes p) := by
  have hmethod : (plan.heldFit fit).method = fit.scanMethod fast := by
    rw [(heldFit_eq plan fit).1, (prepare_sound hplan).method_eq rfl]
    rfl
  rw [eval_snd, CurveFit.fittedWith, assignAll_eq]
  cases (Parameters.writeAll (plan.heldFit fit).parameters
      ((plan.evaluator fit).writes p)).2 with
  | error error => rfl
  | ok _ =>
      simp only [Evaluator.read, hrefits, if_true]
      rw [← hmethod]
      rfl

end Plan

/-- The optimizer is refused only in a projection that is not fast, of a fit that goes by damped
least squares with a likelihood, and only where a parameter other than the targets is thawed. In a
projection of any fit, what is fitted again is fitted with the optimizer that was chosen for the
scan, or with that of the fit when none was chosen. The same holds of every answer that some order of
the points delivers, with any number of workers. -/
theorem unsupported_only_if_kept (fit : CurveFit α) (refusal : PoolRefusal) (m : Optimizer)
    (s : Statistic) :
    (∀ (mode : ScanMode) (options : IntervalOptions α) (name : String),
      (IntervalScan.compute mode options fit name refusal).2 =
        .error (.fit (.unsupportedMethod m s)) →
      mode = .projection ∧ options.fast = false ∧ fit.method = .levmar ∧
        fit.stat.isLikelihood = true ∧
        ∃ i, Fit.index? fit name = some i ∧ fit.othersThawed [i] = true) ∧
    (∀ (mode : ScanMode) (options : RegionOptions α) (name0 name1 : String),
      (RegionScan.compute mode options fit #v[name0, name1] refusal).2 =
        .error (.fit (.unsupportedMethod m s)) →
      mode = .projection ∧ options.fast = false ∧ fit.method = .levmar ∧
        fit.stat.isLikelihood = true ∧
        ∃ i j, Fit.index? fit name0 = some i ∧ Fit.index? fit name1 = some j ∧
          fit.othersThawed [i, j] = true) ∧
    (∀ (n : Nat) (names : Vector String n) (context : String) (req : GridRequest α n) (fast : Bool)
      (plan : Plan α n), (Plan.prepare fit names .projection context req fast).2 = .ok plan →
      (plan.evaluator fit).refits = true → ∀ p : Vector α n,
      ((plan.evaluator fit).eval (plan.heldFit fit) p).2 =
        (plan.heldFit fit).fittedWith (fit.scanMethod fast) ((plan.evaluator fit).writes p)) ∧
    ∀ (n : Nat) (names : Vector String n) (mode : ScanMode) (context : String)
      (req : GridRequest α n) (fast : Bool) (plan : Plan α n) (workers : Nat),
      (Plan.prepare fit names mode context req fast).2 = .ok plan →
      plan.Delivers fit workers (.error (.unsupportedMethod m s)) →
      mode = .projection ∧ fast = false ∧ fit.method = .levmar ∧ fit.stat.isLikelihood = true ∧
        names.toList.map (Fit.index? fit) = plan.targets.toList.map some ∧
        fit.othersThawed plan.targets.toList = true := by
  refine ⟨fun mode options name h => ?_, fun mode options name0 name1 h => ?_,
    fun n names context req fast plan hplan hrefits p =>
      Plan.eval_eq_fittedWith hplan hrefits p,
    fun n names mode context req fast plan workers hplan h => ?_⟩
  · obtain hearly | ⟨plan, hvalidate, hexecute⟩ := IntervalScan.compute_eq_error h
    · exact hearly.elim
    · obtain ⟨req, -, hplan⟩ := IntervalScan.prepare_of_validate hvalidate
      obtain ⟨hmode, hslow, ⟨hmethod, hlikelihood⟩, hothers⟩ :=
        Plan.unsupported_of_delivers hplan (Plan.delivers_of_execute hexecute)
      have hfound := (IntervalScan.validate_sound hvalidate).found
      rw [toList_eq_one plan.targets] at hfound hothers
      exact ⟨hmode, hslow, hmethod, hlikelihood, _, by simpa using hfound, hothers⟩
  · obtain hearly | ⟨plan, levels, hvalidate, hexecute⟩ := RegionScan.compute_eq_error h
    · exact hearly.elim
    · obtain ⟨req, -, hplan⟩ := RegionScan.prepare_of_validate hvalidate
      obtain ⟨hmode, hslow, ⟨hmethod, hlikelihood⟩, hothers⟩ :=
        Plan.unsupported_of_delivers hplan (Plan.delivers_of_execute hexecute)
      have hfound := (RegionScan.validate_sound hvalidate).found
      rw [toList_eq_two plan.targets] at hfound hothers
      simp only [Vector.toList_mk, List.map_cons, List.map_nil, List.cons.injEq, and_true]
        at hfound
      exact ⟨hmode, hslow, hmethod, hlikelihood, _, _, hfound.1, hfound.2, hothers⟩
  · obtain ⟨hmode, hslow, ⟨hmethod, hlikelihood⟩, hothers⟩ :=
      Plan.unsupported_of_delivers hplan h
    exact ⟨hmode, hslow, hmethod, hlikelihood, (Plan.prepare_sound hplan).found, hothers⟩

/-- A parabola through a place without counts, by a likelihood and damped least squares. -/
def emptyPlace : CurveFit Float where
  data := { name := "counts", x := [1], y := [0] }
  model :=
    { name := "parabola"
      parameters := [⟨"c0", 1, 0, 4, false⟩, ⟨"c1", 2, 0, 4, false⟩, ⟨"c2", 1, 0, 4, false⟩]
      curve := fun values x => values.getD 0 0 + values.getD 1 0 * x + values.getD 2 0 * (x * x) }
  stat := .cstat
  config := { tolerance := 0 }

def keptSweep : IntervalOptions Float where
  lower := some (.single 0)
  upper := some (.single 2)
  count := .single 2
  factor := 1
  fast := false

def keptMesh : RegionOptions Float where
  lower := some (.pair 0 0)
  upper := some (.pair 2 2)
  count := .pair 2 2
  factor := 1
  sigma := none
  levels := some [1]
  fast := false

/-- Both kinds of projection are refused when they keep the optimizer. A fast one is made ready and
fits with the simplex. -/
theorem emptyPlace_unsupported :
    (IntervalScan.compute .projection keptSweep emptyPlace "c0").2 =
        .error (.fit (.unsupportedMethod .levmar .cstat)) ∧
      (∃ i, Fit.index? emptyPlace "c0" = some i ∧ emptyPlace.othersThawed [i] = true) ∧
      (RegionScan.compute .projection keptMesh emptyPlace #v["c0", "c1"]).2 =
        .error (.fit (.unsupportedMethod .levmar .cstat)) ∧
      (∃ i j, Fit.index? emptyPlace "c0" = some i ∧ Fit.index? emptyPlace "c1" = some j ∧
        emptyPlace.othersThawed [i, j] = true) ∧
      emptyPlace.scanMethod true = .nelderMead ∧
      ∃ plan : Plan Float 1,
        (Plan.prepare emptyPlace #v["c0"] .projection "" (corners 1) true).2 = .ok plan ∧
        ∀ p, ((plan.evaluator emptyPlace).eval (plan.heldFit emptyPlace) p).2 =
          (plan.heldFit emptyPlace).fittedWith .nelderMead
            ((plan.evaluator emptyPlace).writes p) := by
  obtain ⟨hinterval, hregion, hchosen, -⟩ :=
    unsupported_only_if_kept emptyPlace .never .levmar .cstat
  have hsweep : (IntervalScan.compute .projection keptSweep emptyPlace "c0").2 =
      .error (.fit (.unsupportedMethod .levmar .cstat)) := by decide +kernel
  have hmesh : (RegionScan.compute .projection keptMesh emptyPlace #v["c0", "c1"]).2 =
      .error (.fit (.unsupportedMethod .levmar .cstat)) := by decide +kernel
  obtain ⟨-, -, -, -, hothers⟩ := hinterval _ _ _ hsweep
  obtain ⟨-, -, -, -, hothers'⟩ := hregion _ _ _ _ hmesh
  obtain ⟨plan, hplan, hrefits⟩ := exists_of_toOption_any
    (x := (Plan.prepare emptyPlace #v["c0"] .projection "" (corners 1) true).2)
    (p := fun plan => (plan.evaluator emptyPlace).refits) (by decide +kernel)
  exact ⟨hsweep, hothers, hmesh, hothers', rfl, plan, hplan,
    hchosen 1 _ _ _ _ plan hplan hrefits⟩

end ParameterScan
