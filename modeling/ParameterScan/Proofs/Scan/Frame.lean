import ParameterScan.Proofs.Scan.Release
import ParameterScan.Scan.Interval
import ParameterScan.Scan.Region

/-!
# What a scan leaves behind

A scan of a curve fit is a validation, which reads the fit, and a run of the plan that it makes. The
validation goes through the estimator of the fit and may end at any of a dozen places; the run holds
the fit and releases it. What is left is the fit as it was, or the fit started up and torn down
once, on every path: with options of any shape, with names that are not there, with values outside
the limits, and when a point fails or no pool of threads is to be had.

The errors that a caller had kept by a startup of its own are dropped by the teardown; nothing is
said about them here, and nothing about a program that is stopped from outside.
-/
namespace ParameterScan

variable {α : Type}

/-- A fit with everything that a caller sees of the one before, started up and torn down so many
times more. -/
structure Restored (before after : CurveFit α) (cycles : Nat) : Prop where
  parameters : after.parameters = before.parameters
  method : after.method = before.method
  estimator : after.estimator = before.estimator
  config : after.config = before.config
  model : after.model = before.model
  data : after.data = before.data
  stat : after.stat = before.stat
  startups : after.lifecycle.startups = before.lifecycle.startups + cycles
  teardowns : after.lifecycle.teardowns = before.lifecycle.teardowns + cycles

/-- What the outcome of a scan tells about the fit: it is restored, after one cycle if there is a
result, and without one if the scan was refused. -/
def LeftAsFound {ρ : Type} (before after : CurveFit α) (outcome : Except (ScanError α) ρ) : Prop :=
  ∃ d ≤ 1, Restored before after d ∧ (∀ r, outcome = .ok r → d = 1) ∧
    ∀ e, outcome = .error e → (∀ cause, e ≠ .fit cause) → (∀ reason, e ≠ .workerPool reason) → d = 0

/-- The result that a scan object holds after an outcome. -/
def resultAfter {ε ρ : Type} (held : Option ρ) : Except ε ρ → Option ρ
  | .ok r => some r
  | .error _ => held

theorem leftAsFound_refused {ρ : Type} (fit : CurveFit α) (e : ScanError α) :
    LeftAsFound fit fit (.error e : Except (ScanError α) ρ) := by
  refine ⟨0, Nat.zero_le 1, ⟨rfl, rfl, rfl, rfl, rfl, rfl, rfl, rfl, rfl⟩, ?_, fun _ _ _ _ => rfl⟩
  intro r h
  cases h

theorem exists_of_mapError_eq_error {ε δ ρ : Type} {x : Except ε ρ} {f : ε → δ} {e : δ}
    (h : x.mapError f = .error e) : ∃ cause, e = f cause := by
  cases x with
  | error cause => exact ⟨cause, (Except.error.inj h).symm⟩
  | ok r => cases h

variable [Scalar α] {n : Nat}

namespace GridRequest

/-- The estimate by covariance does not need the estimator to be exchanged. -/
theorem covarianceEstimate_eq (fit : CurveFit α) :
    covarianceEstimate fit = (fit, fit.covarianceErrors) := rfl

theorem ranges_fst (fit : CurveFit α) (idx : Vector Nat n) (req : GridRequest α n) :
    (ranges fit idx req).1 = fit := by
  unfold ranges
  split
  · rfl
  · split_ifs
    · rw [covarianceEstimate_eq]
      cases fit.covarianceErrors <;> rfl
    · rfl

theorem build_fst (fit : CurveFit α) (idx : Vector Nat n) (req : GridRequest α n) :
    (build fit idx req).1 = fit := by
  have hranges := ranges_fst fit idx req
  unfold build
  cases req.checkLayouts with
  | error e => rfl
  | ok _ =>
      cases h : ranges fit idx req with
      | mk fit' outcome =>
          rw [h] at hranges
          cases outcome <;> exact hranges

end GridRequest

namespace Plan

theorem prepare_fst (fit : CurveFit α) (names : Vector String n) (mode : ScanMode)
    (context : String) (req : GridRequest α n) (fast : Bool) :
    (prepare fit names mode context req fast).1 = fit := by
  unfold prepare
  cases check fit names context with
  | error e => rfl
  | ok found =>
      obtain ⟨targets, stat⟩ := found
      have hbuild := GridRequest.build_fst fit targets req
      cases h : GridRequest.build fit targets req with
      | mk fit' outcome =>
          rw [h] at hbuild
          subst hbuild
          cases outcome <;> simp only [h]

/-- Running a plan holds the fit and releases it, whatever comes of it. -/
theorem execute_fst (plan : Plan α n) (fit : CurveFit α) (workers : Option Nat)
    (refusal : PoolRefusal) : (plan.execute fit workers refusal).1 = fit.startup.teardown :=
  Held.release_acquire fit plan.mode plan.targets.toList plan.method

theorem execute_snd (plan : Plan α n) (fit : CurveFit α) (workers : Option Nat)
    (refusal : PoolRefusal) :
    (plan.execute fit workers refusal).2 =
      match refusal.reason workers with
      | some reason => .error (.workerPool reason)
      | none =>
          ((Evaluator.make plan.grid plan.targets plan.mode (Fit.thawedCount fit)).evalAll
            (Held.acquire fit plan.mode plan.targets.toList plan.method).fit
            plan.grid.mesh workers).mapError .fit := rfl

theorem execute_error {plan : Plan α n} {fit : CurveFit α} {workers : Option Nat}
    {refusal : PoolRefusal} {e : ScanError α}
    (h : (plan.execute fit workers refusal).2 = .error e) :
    (∃ cause, e = .fit cause) ∨ ∃ reason, e = .workerPool reason := by
  rw [execute_snd] at h
  split at h
  · rename_i reason _
    exact .inr ⟨reason, (Except.error.inj h).symm⟩
  · obtain ⟨cause, rfl⟩ := exists_of_mapError_eq_error h
    exact .inl ⟨cause, rfl⟩

end Plan

namespace IntervalScan

/-- Everything that is settled before the fit is held. -/
def validate (mode : ScanMode) (options : IntervalOptions α) (fit : CurveFit α) (name : String) :
    Except (ScanError α) (Plan α 1) := do
  let req ← options.gridRequest
  (Plan.prepare fit #v[name] mode (context mode) req options.fast).2

theorem compute_eq (mode : ScanMode) (options : IntervalOptions α) (fit : CurveFit α)
    (name : String) (refusal : PoolRefusal) :
    compute mode options fit name refusal =
      match validate mode options fit name with
      | .error e => (fit, .error e)
      | .ok plan =>
          let (fit, y) := plan.execute fit options.workers refusal
          (fit, y.map (report options plan)) := by
  unfold compute validate
  cases options.gridRequest with
  | error e => rfl
  | ok req =>
      have hfit := Plan.prepare_fst fit #v[name] mode (context mode) req options.fast
      cases h : Plan.prepare fit #v[name] mode (context mode) req options.fast with
      | mk fit' outcome =>
          rw [h] at hfit
          subst hfit
          cases outcome <;> simp [bind, Except.bind, h]

end IntervalScan

namespace RegionScan

/-- Everything that is settled before the fit is held: the plan and the levels. -/
def validate (mode : ScanMode) (options : RegionOptions α) (fit : CurveFit α)
    (names : Vector String 2) : Except (ScanError α) (Plan α 2 × List α) := do
  let req ← options.gridRequest
  let plan ← (Plan.prepare fit names mode (context mode) req options.fast).2
  let levels ← Levels.contour plan.stat options.levels options.sigma
  return (plan, levels)

theorem compute_eq (mode : ScanMode) (options : RegionOptions α) (fit : CurveFit α)
    (names : Vector String 2) (refusal : PoolRefusal) :
    compute mode options fit names refusal =
      match validate mode options fit names with
      | .error e => (fit, .error e)
      | .ok (plan, levels) =>
          let (fit, y) := plan.execute fit options.workers refusal
          (fit, y.map (report options plan levels)) := by
  unfold compute validate
  cases options.gridRequest with
  | error e => rfl
  | ok req =>
      have hfit := Plan.prepare_fst fit names mode (context mode) req options.fast
      cases h : Plan.prepare fit names mode (context mode) req options.fast with
      | mk fit' outcome =>
          rw [h] at hfit
          subst hfit
          cases outcome with
          | error e => simp [bind, Except.bind, h]
          | ok plan =>
              cases hl : Levels.contour plan.stat options.levels options.sigma <;>
                simp [bind, Except.bind, pure, Except.pure, h, hl]

end RegionScan

/-- A plan that is run ends in a result, in the failure of a point or without a pool. -/
theorem leftAsFound_executed {ρ : Type} (plan : Plan α n) (fit : CurveFit α)
    (workers : Option Nat) (refusal : PoolRefusal) (report : List α → ρ) :
    LeftAsFound fit (plan.execute fit workers refusal).1
      ((plan.execute fit workers refusal).2.map report) := by
  rw [Plan.execute_fst]
  refine ⟨1, Nat.le_refl 1, ⟨rfl, rfl, rfl, rfl, rfl, rfl, rfl, rfl, rfl⟩, fun _ _ => rfl, ?_⟩
  intro e he hfit hpool
  cases hy : (plan.execute fit workers refusal).2 with
  | ok y =>
      rw [hy] at he
      cases he
  | error d =>
      rw [hy] at he
      cases he
      rcases Plan.execute_error hy with ⟨cause, hc⟩ | ⟨reason, hr⟩
      · exact absurd hc (hfit cause)
      · exact absurd hr (hpool reason)

theorem IntervalScan.compute_leftAsFound (mode : ScanMode) (options : IntervalOptions α)
    (fit : CurveFit α) (name : String) (refusal : PoolRefusal) :
    LeftAsFound fit (compute mode options fit name refusal).1
      (compute mode options fit name refusal).2 := by
  rw [compute_eq]
  cases validate mode options fit name with
  | error e => exact leftAsFound_refused fit e
  | ok plan => exact leftAsFound_executed plan fit options.workers refusal (report options plan)

theorem RegionScan.compute_leftAsFound (mode : ScanMode) (options : RegionOptions α)
    (fit : CurveFit α) (names : Vector String 2) (refusal : PoolRefusal) :
    LeftAsFound fit (compute mode options fit names refusal).1
      (compute mode options fit names refusal).2 := by
  rw [compute_eq]
  cases validate mode options fit names with
  | error e => exact leftAsFound_refused fit e
  | ok found =>
      exact leftAsFound_executed found.1 fit options.workers refusal
        (report options found.1 found.2)

/-- All scans, of either mode and over one parameter or two, with any options, any names and any
system to ask for threads, leave the fit as they found it. The object that scans holds the new
result if there is one and otherwise the one it held. -/
theorem run_leaves_fit_as_found (fit : CurveFit α) (refusal : PoolRefusal) :
    (∀ (s : IntervalScan α) (name : String),
      let (s', after, outcome) := s.run fit name refusal
      LeftAsFound fit after outcome ∧ s' = { s with result := resultAfter s.result outcome }) ∧
    ∀ (s : RegionScan α) (name0 name1 : String),
      let (s', after, outcome) := s.run fit name0 name1 refusal
      LeftAsFound fit after outcome ∧
        s' = { s with result := resultAfter s.result outcome } := by
  refine ⟨?_, ?_⟩
  · intro s name
    have hleft := IntervalScan.compute_leftAsFound s.mode s.options fit name refusal
    unfold IntervalScan.run
    cases h : IntervalScan.compute s.mode s.options fit name refusal with
    | mk after outcome =>
        rw [h] at hleft
        cases outcome <;> exact ⟨hleft, rfl⟩
  · intro s name0 name1
    have hleft := RegionScan.compute_leftAsFound s.mode s.options fit #v[name0, name1] refusal
    unfold RegionScan.run
    cases h : RegionScan.compute s.mode s.options fit #v[name0, name1] refusal with
    | mk after outcome =>
        rw [h] at hleft
        cases outcome <;> exact ⟨hleft, rfl⟩

end ParameterScan
