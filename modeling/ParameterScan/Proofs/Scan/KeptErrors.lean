import ParameterScan.Proofs.Fit.KeptErrors
import ParameterScan.Proofs.Scan.Delivery
import ParameterScan.Proofs.Scan.Pointwise

/-!
# Kept errors do not show in a scan

What a scan reads of a fit before it holds it are answers of the fit, and these do not show what the
fit keeps. Holding starts the model up, so the fit that is evaluated keeps fresh errors whatever was
kept before, and releasing it drops them. A scan therefore has the outcome that it has on the bare
fit, and what it leaves differs from what it found by the kept errors and the count of startups.
-/
namespace ParameterScan

variable {α : Type} [Scalar α] {n : Nat} {fit : CurveFit α}

theorem GridRequest.ranges_bare (h : fit.Coherent) (idx : Vector Nat n) (req : GridRequest α n) :
    (ranges fit.bare idx req).2 = (ranges fit idx req).2 := by
  unfold ranges
  rw [covarianceEstimate_eq, covarianceEstimate_eq, h.covarianceErrors_bare]
  split
  · rfl
  · split_ifs
    · cases fit.covarianceErrors <;> rfl
    · rfl

theorem GridRequest.build_bare (h : fit.Coherent) (idx : Vector Nat n) (req : GridRequest α n) :
    (build fit.bare idx req).2 = (build fit idx req).2 := by
  have hranges := ranges_bare h idx req
  have hown := ranges_fst fit idx req
  have hbare := ranges_fst fit.bare idx req
  unfold build
  cases req.checkLayouts with
  | error e => rfl
  | ok _ =>
      cases hr : ranges fit idx req with
      | mk after outcome =>
          cases hb : ranges fit.bare idx req with
          | mk after' outcome' =>
              simp only [hr, hb] at hranges hown hbare
              subst hranges hown hbare
              cases outcome' <;> rfl

theorem Plan.check_bare (h : fit.Coherent) (names : Vector String n) (context : String) :
    check fit.bare names context = check fit names context := by
  have hstat : Fit.calcStat fit.bare = Fit.calcStat fit := h.calcStat_bare
  unfold check
  rw [hstat]
  rfl

theorem Plan.prepare_bare (h : fit.Coherent) (names : Vector String n) (mode : ScanMode)
    (context : String) (req : GridRequest α n) (fast : Bool) :
    (prepare fit.bare names mode context req fast).2 =
      (prepare fit names mode context req fast).2 := by
  unfold prepare
  rw [check_bare h]
  cases check fit names context with
  | error e => rfl
  | ok found =>
      obtain ⟨targets, stat⟩ := found
      have hbuild := GridRequest.build_bare h targets req
      have hown := GridRequest.build_fst fit targets req
      have hbare := GridRequest.build_fst fit.bare targets req
      simp only
      cases hr : GridRequest.build fit targets req with
      | mk after outcome =>
          cases hb : GridRequest.build fit.bare targets req with
          | mk after' outcome' =>
              simp only [hr, hb] at hbuild hown hbare
              subst hbuild hown hbare
              cases outcome' <;> rfl

theorem Evaluator.eval_bare {held : CurveFit α} (h : held.Coherent) (e : Evaluator α n)
    (p : Vector α n) : (e.eval held.bare p).2 = (e.eval held p).2 := by
  have hparameters : held.bare.parameters = held.parameters := rfl
  rw [eval_snd, eval_snd, hparameters]
  cases (Parameters.writeAll held.parameters (e.writes p)).2 with
  | error error => rfl
  | ok _ =>
      have hwritten := h.withParameters (Parameters.writeAll held.parameters (e.writes p)).1
      simp only [Evaluator.read, ← CurveFit.bare_withParameters]
      generalize held.withParameters _ = written at hwritten
      split_ifs
      · exact congrArg (Except.map FitResult.stat) (hwritten.minimise_bare true).1
      · exact hwritten.calcStat_bare

theorem Held.freezeFor_bare (mode : ScanMode) (targets : List Nat) (fit : CurveFit α) :
    freezeFor mode targets fit.bare = (freezeFor mode targets fit).bare := by
  cases mode with
  | uncertainty => rfl
  | projection =>
      rw [freezeFor_projection, freezeFor_projection]
      rfl

/-- A fit that is held has fresh errors, whatever it kept before. -/
theorem Held.acquire_bare (fit : CurveFit α) (mode : ScanMode) (targets : List Nat)
    (method : Option Optimizer) :
    (acquire fit.bare mode targets method).fit.bare =
        (acquire fit mode targets method).fit.bare ∧
      (acquire fit mode targets method).fit.Coherent := by
  refine ⟨?_, CurveFit.coherent_startup _⟩
  have hfrozen := freezeFor_bare mode targets (Fit.withMethod fit (method.getD (Fit.method fit)))
  have hstarted := congrArg (fun frozen : CurveFit α => frozen.startup.bare) hfrozen
  exact hstarted

/-- A point that is taken by itself has the outcome that it has on the bare fit. -/
theorem Plan.fresh_bare (plan : Plan α n) (fit : CurveFit α) :
    Pool.fresh (plan.evaluator fit.bare).eval (plan.heldFit fit.bare) =
      Pool.fresh (plan.evaluator fit).eval (plan.heldFit fit) := by
  have hevaluator : plan.evaluator fit.bare = plan.evaluator fit := rfl
  obtain ⟨hheld, hcoherent⟩ := Held.acquire_bare fit plan.mode plan.targets.toList plan.method
  have hcoherent' := (Held.acquire_bare fit.bare plan.mode plan.targets.toList plan.method).2
  funext p
  rw [hevaluator, Pool.fresh, Pool.fresh, heldFit, heldFit, ← Evaluator.eval_bare hcoherent', hheld,
    Evaluator.eval_bare hcoherent]

/-- So have all of them, in whatever order. -/
theorem Plan.delivers_bare (plan : Plan α n) (fit : CurveFit α) {workers : Nat}
    (hworkers : 0 < workers) (out : Except (FitError α) (List α)) :
    plan.Delivers fit.bare workers out ↔ plan.Delivers fit workers out :=
  Pool.delivered_congr hworkers (plan.fresh_bare fit)

theorem Plan.execute_bare (plan : Plan α n) (fit : CurveFit α) (workers : Option Nat)
    (refusal : PoolRefusal) :
    (plan.execute fit.bare workers refusal).2 = (plan.execute fit workers refusal).2 := by
  have hpoints : (plan.evaluator fit.bare).evalAll (plan.heldFit fit.bare) plan.grid.mesh workers =
      (plan.evaluator fit).evalAll (plan.heldFit fit) plan.grid.mesh workers := by
    rw [Evaluator.evalAll, Evaluator.evalAll, Pool.parallelMap_eq_mapM, Pool.parallelMap_eq_mapM,
      fresh_bare]
  unfold execute
  simp only
  split
  · rfl
  · exact congrArg (Except.mapError ScanError.fit) hpoints

theorem Plan.bare_execute (plan : Plan α n) (fit : CurveFit α) (workers : Option Nat)
    (refusal : PoolRefusal) : (plan.execute fit workers refusal).1.bare = fit.bare := by
  rw [execute_fst, CurveFit.bare_teardown, CurveFit.bare_startup]

theorem Plan.coherent_execute (plan : Plan α n) (fit : CurveFit α) (workers : Option Nat)
    (refusal : PoolRefusal) : (plan.execute fit workers refusal).1.Coherent := by
  rw [execute_fst]
  exact CurveFit.coherent_teardown _

/-- A scan of one parameter has the same outcome and leaves the same behind. -/
theorem IntervalScan.compute_bare (h : fit.Coherent) (mode : ScanMode)
    (options : IntervalOptions α) (name : String) (refusal : PoolRefusal) :
    (compute mode options fit.bare name refusal).2 = (compute mode options fit name refusal).2 ∧
      (compute mode options fit name refusal).1.bare = fit.bare ∧
      (compute mode options fit name refusal).1.Coherent := by
  have hvalidate : validate mode options fit.bare name = validate mode options fit name := by
    unfold validate
    cases options.gridRequest with
    | error e => rfl
    | ok req => exact Plan.prepare_bare h _ _ _ _ _
  rw [compute_eq, compute_eq, hvalidate]
  cases validate mode options fit name with
  | error e => exact ⟨rfl, rfl, h⟩
  | ok plan =>
      have houtcome := plan.execute_bare fit options.workers refusal
      exact ⟨congrArg (Except.map (report options plan)) houtcome,
        plan.bare_execute fit options.workers refusal,
        plan.coherent_execute fit options.workers refusal⟩

/-- So has one of two. -/
theorem RegionScan.compute_bare (h : fit.Coherent) (mode : ScanMode) (options : RegionOptions α)
    (names : Vector String 2) (refusal : PoolRefusal) :
    (compute mode options fit.bare names refusal).2 = (compute mode options fit names refusal).2 ∧
      (compute mode options fit names refusal).1.bare = fit.bare ∧
      (compute mode options fit names refusal).1.Coherent := by
  have hvalidate : validate mode options fit.bare names = validate mode options fit names := by
    unfold validate
    cases options.gridRequest with
    | error e => rfl
    | ok req =>
        simp only [bind, Except.bind]
        rw [Plan.prepare_bare h]
  rw [compute_eq, compute_eq, hvalidate]
  cases validate mode options fit names with
  | error e => exact ⟨rfl, rfl, h⟩
  | ok found =>
      obtain ⟨plan, levels⟩ := found
      have houtcome := plan.execute_bare fit options.workers refusal
      exact ⟨congrArg (Except.map (report options plan levels)) houtcome,
        plan.bare_execute fit options.workers refusal,
        plan.coherent_execute fit options.workers refusal⟩

end ParameterScan
