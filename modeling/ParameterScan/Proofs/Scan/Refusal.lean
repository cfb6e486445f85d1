import ParameterScan.Proofs.Failure
import ParameterScan.Proofs.Fit.Estimate
import ParameterScan.Proofs.Fit.Reachable
import ParameterScan.Proofs.Scalar.Monotone

/-!
# What a scan may be refused with

A validation goes through the options, the statistic, the targets, the statistic at the best fit,
the layouts, an estimate by covariance where a side is open, the ranges, and the contour levels.
Each stage has its own errors. What none of them has is the one of an estimate in which a target is
missing: targets that pass the checks are thawed, an estimate of a curve fit has an entry for each
thawed parameter, and the entry of a target is found under its name. Of the errors of a fit only
two can come up, because no stage minimises.
-/
namespace ParameterScan

variable {α : Type} [Scalar α]

/-- The errors that a scan may be refused with before the fit is held. -/
def ScanError.Early : ScanError α → Prop
  | .missingEstimate _ | .workerPool _ => False
  | .fit (.nonFiniteStat value) => Scalar.isFinite value = false
  | .fit .noThawedParameters => True
  | .fit _ => False
  | _ => True

open ScanError (Early)

theorem IntervalOptions.early_gridRequest (o : IntervalOptions α) : Fails Early o.gridRequest := by
  have hbound : ∀ b : Option (PerAxis α), Fails Early (bound b) := by
    intro b
    unfold bound
    split
    · exact fails_ok _
    · exact fails_ok _
    · exact fails_error_iff.mpr trivial
  have hlayout : Fails Early o.layout := by
    unfold layout
    split
    · exact fails_ok _
    · exact fails_ok _
    · exact fails_error_iff.mpr trivial
  exact (hbound o.lower).bind fun _ _ => (hbound o.upper).bind fun _ _ =>
    hlayout.bind fun _ _ => fails_ok _

theorem RegionOptions.early_gridRequest (o : RegionOptions α) : Fails Early o.gridRequest := by
  have hbound : ∀ b : Option (PerAxis α), Fails Early (bound b) := by
    intro b
    unfold bound
    split
    · exact fails_ok _
    · split
      · exact fails_ok _
      · exact fails_error_iff.mpr trivial
  have hlayout : Fails Early o.layout := by
    unfold layout
    split
    · exact fails_ok _
    · split
      · exact fails_ok _
      · exact fails_error_iff.mpr trivial
  exact (hbound o.lower).bind fun _ _ => (hbound o.upper).bind fun _ _ =>
    hlayout.bind fun _ _ => fails_ok _

variable {n : Nat} {fit : CurveFit α}

theorem Levels.early_contour (stat : α) (levels : Option (List α)) (sigma : Option (PerAxis α)) :
    Fails Early (contour stat levels sigma) := by
  unfold contour
  split
  · exact fails_ok _
  · unfold ofSigma
    split
    · exact fails_error_iff.mpr trivial
    · exact fails_error_iff.mpr trivial
    · exact fails_error_iff.mpr trivial
    · exact fails_ok _

theorem CurveFit.fails_calcStat (fit : CurveFit α) :
    Fails (fun e => ∃ value, Scalar.isFinite value = false ∧ e = .nonFiniteStat value)
      fit.calcStat := by
  unfold calcStat
  simp only
  split_ifs with hfinite
  · exact fails_ok _
  · exact fails_error_iff.mpr ⟨_, Bool.eq_false_iff.mpr hfinite, rfl⟩

theorem CurveFit.fails_covarianceErrors (fit : CurveFit α) :
    Fails (· = .noThawedParameters) fit.covarianceErrors := by
  refine Fails.map ?_ _
  unfold deviations deviationsWith
  simp only
  split_ifs
  · exact fails_error_iff.mpr rfl
  · split <;> exact fails_ok _

/-- A place at which a scan target is found under a name, and thawed. -/
def CurveFit.Accepts (fit : CurveFit α) (name : String) (i : Nat) : Prop :=
  Fit.index? fit name = some i ∧ i ∈ Parameters.thawedIndices fit.parameters

namespace Plan

theorem early_target (fit : CurveFit α) (context name : String) :
    Fails Early (target fit context name) := by
  unfold target
  split
  · exact fails_error_iff.mpr trivial
  · split_ifs
    · exact fails_error_iff.mpr trivial
    · exact fails_ok _

theorem early_check (fit : CurveFit α) (names : Vector String n) (context : String) :
    Fails Early (check fit names context) := by
  have htargets : Fails Early (names.mapM (target fit context)) :=
    fails_vector_mapM fun name _ => early_target fit context name
  unfold check
  cases (Fit.statistic fit).supportsConfidence with
  | false => exact fails_error_iff.mpr trivial
  | true =>
      refine htargets.bind fun targets _ => ?_
      cases h : Fit.calcStat fit with
      | ok stat => exact fails_ok _
      | error e =>
          obtain ⟨value, hvalue, rfl⟩ := fit.fails_calcStat e h
          exact fails_error_iff.mpr hvalue

/-- The targets that pass the checks are accepted one by one. -/
theorem accepts_of_check {names : Vector String n} {context : String} {targets : Vector Nat n}
    {stat : α} (h : check fit names context = .ok (targets, stat)) (a : Fin n) :
    fit.Accepts (names.get a) (targets.get a) := by
  obtain ⟨hfound, hthawed⟩ := found_of_check h
  have hget := congrArg (fun l => l[a.val]?) hfound
  refine ⟨by simpa [Vector.get] using hget, hthawed ?_⟩
  simp [Vector.get]

end Plan

namespace GridRequest

theorem early_checkLayouts (req : GridRequest α n) : Fails Early req.checkLayouts := by
  refine fails_forM fun a _ => ?_
  unfold checkLayout
  split
  · split_ifs
    · exact fails_error_iff.mpr trivial
    · exact fails_ok _
  · split_ifs
    · exact fails_ok _
    · exact fails_error_iff.mpr trivial

theorem early_axis (a : Nat) (p : Parameter α) (r : Range α) (layout : Layout α) (log : Bool) :
    Fails Early (axis a p r layout log) := by
  have hrange : ∀ r : Range α, Fails Early (checkRange a r) := by
    intro r
    unfold checkRange
    split_ifs
    · exact fails_ok _
    · exact fails_error_iff.mpr trivial
  have hsteps : ∀ r : Range α, Fails Early (checkSteps a r layout) := by
    intro r
    unfold checkSteps
    split
    · exact fails_ok _
    · split_ifs
      · exact fails_ok _
      · exact fails_error_iff.mpr trivial
  have hlog : ∀ r : Range α, Fails Early (checkLog a r log) := by
    intro r
    unfold checkLog
    split_ifs
    · exact fails_ok _
    · exact fails_error_iff.mpr trivial
  exact (hrange _).bind fun _ _ => (hrange _).bind fun _ _ => (hsteps _).bind fun _ _ =>
    (hlog _).bind fun _ _ => fails_ok _

/-- An estimate of the fit has an entry under the name of each accepted target. -/
theorem exists_derivedRange {e : ErrorEstimate α} (h : e.Describes fit.parameters) {name : String}
    {i : Nat} (hi : fit.Accepts name i) (factor : α) (lower upper : Option α) :
    ∃ r, derivedRange factor e (Fit.parameter fit i) lower upper = .ok r := by
  have hname : (Fit.parameter fit i).name = name := by
    obtain ⟨p, hp, hname⟩ := exists_of_index? hi.1
    rw [Fit.parameter, List.getD_eq_getElem?_getD, hp]
    exact hname
  obtain ⟨k, hk, -⟩ := h.index?_of_found hi.1 hi.2
  unfold derivedRange
  rw [hname, hk]
  exact ⟨_, rfl⟩

theorem early_ranges {names : Vector String n} {idx : Vector Nat n}
    (hidx : ∀ a : Fin n, fit.Accepts (names.get a) (idx.get a)) (req : GridRequest α n) :
    Fails Early (ranges fit idx req).2 := by
  unfold ranges
  split
  · exact fails_ok _
  · split_ifs
    · rw [covarianceEstimate_eq]
      cases hestimate : fit.covarianceErrors with
      | error e =>
          obtain rfl := fit.fails_covarianceErrors e hestimate
          exact fails_error_iff.mpr trivial
      | ok estimate =>
          refine fails_vector_mapM fun a _ => ?_
          obtain ⟨r, hr⟩ := exists_derivedRange (CurveFit.describes_of_covarianceErrors hestimate)
            (hidx a) req.factor (req.lower.map (·.get a)) (req.upper.map (·.get a))
          rw [hr]
          exact fails_ok r
    · exact fails_error_iff.mpr trivial

theorem early_build {names : Vector String n} {idx : Vector Nat n}
    (hidx : ∀ a : Fin n, fit.Accepts (names.get a) (idx.get a)) (req : GridRequest α n) :
    Fails Early (build fit idx req).2 := by
  have hlayouts := req.early_checkLayouts
  have hranges := early_ranges hidx req
  unfold build
  cases hl : req.checkLayouts with
  | error e => exact fails_error_iff.mpr (hlayouts e hl)
  | ok _ =>
      cases hr : ranges fit idx req with
      | mk after outcome =>
          rw [hr] at hranges
          cases outcome with
          | error e => exact fails_error_iff.mpr (hranges e rfl)
          | ok rs => exact Fails.map (fails_vector_mapM fun a _ => early_axis _ _ _ _ _) _

end GridRequest

theorem Plan.early_prepare (fit : CurveFit α) (names : Vector String n) (mode : ScanMode)
    (context : String) (req : GridRequest α n) (fast : Bool) :
    Fails Early (prepare fit names mode context req fast).2 := by
  have hcheck := early_check fit names context
  unfold prepare
  cases hc : check fit names context with
  | error e => exact fails_error_iff.mpr (hcheck e hc)
  | ok found =>
      obtain ⟨targets, stat⟩ := found
      have hbuild := GridRequest.early_build (accepts_of_check hc) req
      simp only
      cases hb : GridRequest.build fit targets req with
      | mk after outcome =>
          rw [hb] at hbuild
          cases outcome with
          | error e => exact fails_error_iff.mpr (hbuild e rfl)
          | ok grid => exact fails_ok _

theorem IntervalScan.early_validate (mode : ScanMode) (options : IntervalOptions α)
    (fit : CurveFit α) (name : String) : Fails Early (validate mode options fit name) :=
  options.early_gridRequest.bind fun _ _ => Plan.early_prepare _ _ _ _ _ _

theorem RegionScan.early_validate (mode : ScanMode) (options : RegionOptions α)
    (fit : CurveFit α) (names : Vector String 2) : Fails Early (validate mode options fit names) :=
  options.early_gridRequest.bind fun _ _ => (Plan.early_prepare _ _ _ _ _ _).bind fun _ _ =>
    (Levels.early_contour _ _ _).bind fun _ _ => fails_ok _

section Errors

variable {refusal : PoolRefusal} {e : ScanError α}

/-- A scan fails early, or a run of its plan fails. -/
theorem IntervalScan.compute_eq_error {mode : ScanMode} {options : IntervalOptions α}
    {name : String} (h : (compute mode options fit name refusal).2 = .error e) :
    e.Early ∨ ∃ plan, validate mode options fit name = .ok plan ∧
      (plan.execute fit options.workers refusal).2 = .error e := by
  rw [compute_eq] at h
  cases hvalidate : validate mode options fit name with
  | error d =>
      rw [hvalidate] at h
      exact .inl (Except.error.inj h ▸ early_validate mode options fit name d hvalidate)
  | ok plan =>
      rw [hvalidate] at h
      exact .inr ⟨plan, rfl, eq_error_of_map h⟩

theorem RegionScan.compute_eq_error {mode : ScanMode} {options : RegionOptions α}
    {names : Vector String 2} (h : (compute mode options fit names refusal).2 = .error e) :
    e.Early ∨ ∃ plan levels, validate mode options fit names = .ok (plan, levels) ∧
      (plan.execute fit options.workers refusal).2 = .error e := by
  rw [compute_eq] at h
  cases hvalidate : validate mode options fit names with
  | error d =>
      rw [hvalidate] at h
      exact .inl (Except.error.inj h ▸ early_validate mode options fit names d hvalidate)
  | ok found =>
      obtain ⟨plan, levels⟩ := found
      rw [hvalidate] at h
      exact .inr ⟨plan, levels, rfl, eq_error_of_map h⟩

end Errors

/-- An estimate by either method lists the thawed parameters with their names and values, and has
two bounds for each. Those by covariance are a deviation to both sides or missing, those by
confidence are found by moving the parameter of their place. The entry that is found for an accepted
target is its own, so that no scan of either kind ends because an estimate lacks a target. -/
theorem estimates_line_up [Scalar.Monotone α] (fit : CurveFit α) :
    (∀ e, fit.estimateErrors = .ok e →
      e.Describes fit.parameters ∧
      (fit.estimator = .covariance → List.Forall₂ CurveFit.Opposite e.lower e.upper) ∧
      (fit.estimator = .confidence → fit.Searched e) ∧
      ∀ (context name : String) (i : Nat), Plan.target fit context name = .ok i →
        ∃ k, e.index? name = some k ∧ (Parameters.thawedIndices fit.parameters)[k]? = some i ∧
          k < e.lower.length ∧ k < e.upper.length) ∧
    (∀ (mode : ScanMode) (options : IntervalOptions α) (name : String) (refusal : PoolRefusal)
      (missing : String),
      (IntervalScan.compute mode options fit name refusal).2 ≠ .error (.missingEstimate missing)) ∧
    ∀ (mode : ScanMode) (options : RegionOptions α) (names : Vector String 2)
      (refusal : PoolRefusal) (missing : String),
      (RegionScan.compute mode options fit names refusal).2 ≠ .error (.missingEstimate missing) := by
  have hrun : ∀ {n : Nat} {plan : Plan α n} {workers : Option Nat} {refusal : PoolRefusal}
      {missing : String},
      (plan.execute fit workers refusal).2 ≠ .error (.missingEstimate missing) := by
    intro n plan workers refusal missing h
    obtain ⟨_, hcause⟩ | ⟨_, hreason⟩ := Plan.execute_error h
    · cases hcause
    · cases hreason
  refine ⟨fun e he => ?_, fun mode options name refusal missing h => ?_,
    fun mode options names refusal missing h => ?_⟩
  · have hdescribes := CurveFit.describes_of_estimateErrors he
    refine ⟨hdescribes, fun hestimator => ?_, fun hestimator => ?_, fun context name i hi => ?_⟩
    · have hcovariance : fit.covarianceErrors = .ok e := by
        simpa only [CurveFit.estimateErrors, hestimator] using he
      obtain ⟨sigmas, hsigmas, rfl⟩ := CurveFit.covarianceErrors_eq_ok hcovariance
      exact CurveFit.opposite_symmetricEstimate fun s => CurveFit.pos_of_mem_deviations hsigmas
    · have hconfidence : fit.confidenceErrors = .ok e := by
        simpa only [CurveFit.estimateErrors, hestimator] using he
      exact (CurveFit.describes_of_confidenceErrors hconfidence).2
    · obtain ⟨hfound, hthawed⟩ := Plan.target_eq_ok hi
      exact hdescribes.index?_of_found hfound hthawed
  · obtain hearly | ⟨_, -, hexecute⟩ := IntervalScan.compute_eq_error h
    · exact hearly
    · exact hrun hexecute
  · obtain hearly | ⟨_, _, -, hexecute⟩ := RegionScan.compute_eq_error h
    · exact hearly
    · exact hrun hexecute

/-- A level line whose two coefficients have one name, next to a frozen parameter. -/
def namesakes : CurveFit Float where
  data := { name := "line", x := [0, 1], y := [1e8, 1e8], errors := some [1, 1] }
  model :=
    { name := "line"
      parameters := [⟨"unused", 1, 0, 4, true⟩, ⟨"c", 1e8, 0, 2e8, false⟩, ⟨"c", 0, -4, 4, false⟩]
      curve := fun values x => values.getD 1 0 + values.getD 2 0 * x }
  stat := .chi2
  config := { tolerance := 0 }

/-- The line with its slope frozen, to be searched for its level. -/
def searchedLevel : CurveFit Float := { namesakes.pinned 2 0 with estimator := .confidence }

/-- Both coefficients have bounds by covariance, and the entry that is found by their name is that
of the first. With the other one frozen its bounds are found by a search. -/
theorem namesakes_line_up :
    (∃ e, namesakes.estimateErrors = .ok e ∧ e.Describes namesakes.parameters ∧
      List.Forall₂ CurveFit.Opposite e.lower e.upper ∧ e.upper.all Option.isSome = true ∧
      Plan.target namesakes "interval projection" "c" = .ok 1 ∧ e.index? "c" = some 0) ∧
    ∃ e, searchedLevel.estimateErrors = .ok e ∧ e.names = ["c"] ∧ searchedLevel.Searched e := by
  constructor
  · obtain ⟨e, he, hbounds⟩ := exists_of_toOption_any (x := namesakes.estimateErrors)
      (p := fun e => e.upper.all Option.isSome) (by decide +kernel)
    have htarget : Plan.target namesakes "interval projection" "c" = .ok 1 := rfl
    obtain ⟨hdescribes, hopposite, -, hindex⟩ := (estimates_line_up namesakes).1 e he
    obtain ⟨k, hk, hplace, -⟩ := hindex _ _ _ htarget
    -- Of the two places only the first one is that of the target.
    have hplaces : Parameters.thawedIndices namesakes.parameters = [1, 2] := rfl
    rw [hplaces] at hplace
    obtain rfl : k = 0 := by
      rcases k with _ | _ | k
      · rfl
      · simp at hplace
      · simp at hplace
    exact ⟨e, he, hdescribes, hopposite rfl, hbounds, htarget, hk⟩
  · obtain ⟨e, he⟩ := exists_of_isOk (x := searchedLevel.estimateErrors) (by decide +kernel)
    obtain ⟨hdescribes, -, hsearched, -⟩ := (estimates_line_up searchedLevel).1 e he
    exact ⟨e, he, hdescribes.names_eq, hsearched rfl⟩

end ParameterScan
