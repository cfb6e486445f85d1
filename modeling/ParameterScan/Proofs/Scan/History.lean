import ParameterScan.Proofs.Scalar.Monotone
import ParameterScan.Proofs.Scan.KeptErrors

/-!
# Histories of a fit

A program works on a fit through its operations, in any order: startups and teardowns that need not
match, fits that fail, writes to any parameter, estimates and scans, which fit and start up on their
own. One operation keeps the errors of the fit effective, and its answer goes by the data, the
statistic, the parameters and the settings alone. By induction so does every answer of a whole run,
and what happened before does not show.
-/
namespace ParameterScan

variable {α : Type} [Scalar α] {fit : CurveFit α}

/-- What a program does with a fit. A copy of a fit is the fit. -/
inductive Operation (α : Type) where
  | startup
  | teardown
  | minimise (reuse : Bool)
  | calcStat
  | estimateErrors
  | setMethod (method : Optimizer)
  | setEstimator (estimator : Estimator)
  | setConfig (config : SearchConfig α)
  | assignThawed (xs : List α)
  | assign (place : Nat) (x : α)
  /-- Freezes or thaws a parameter, or writes any of its fields. -/
  | write (place : Nat) (change : Parameter α → Parameter α)
  | interval (mode : ScanMode) (options : IntervalOptions α) (name : String)
      (refusal : PoolRefusal)
  | region (mode : ScanMode) (options : RegionOptions α) (names : Vector String 2)
      (refusal : PoolRefusal)

/-- What comes back. -/
inductive Answer (α : Type) where
  | done
  | stat (outcome : Except (FitError α) α)
  | fitted (outcome : Except (FitError α) (FitResult α))
  | estimated (outcome : Except (FitError α) (ErrorEstimate α))
  | assigned (outcome : Except (FitError α) Unit)
  | interval (outcome : Except (ScanError α) (IntervalResult α))
  | region (outcome : Except (ScanError α) (RegionResult α))

namespace CurveFit

def perform (fit : CurveFit α) : Operation α → CurveFit α × Answer α
  | .startup => (fit.startup, .done)
  | .teardown => (fit.teardown, .done)
  | .minimise reuse => (fit.minimise reuse).map id .fitted
  | .calcStat => (fit, .stat fit.calcStat)
  | .estimateErrors => (fit, .estimated fit.estimateErrors)
  | .setMethod method => ({ fit with method }, .done)
  | .setEstimator estimator => ({ fit with estimator }, .done)
  | .setConfig config => ({ fit with config }, .done)
  | .assignThawed xs => (Fit.assignThawed fit xs).map id .assigned
  | .assign place x => (Fit.assign fit place x).map id .assigned
  | .write place change => (Fit.modifyParameter fit place change, .done)
  | .interval mode options name refusal =>
      (IntervalScan.compute mode options fit name refusal).map id .interval
  | .region mode options names refusal =>
      (RegionScan.compute mode options fit names refusal).map id .region

/-- The fit after some operations, and what came back from each. -/
def run (fit : CurveFit α) : List (Operation α) → CurveFit α × List (Answer α)
  | [] => (fit, [])
  | op :: rest =>
      let (after, answer) := fit.perform op
      let (last, answers) := after.run rest
      (last, answer :: answers)

/-- Fits with the same data, statistic and curve and with the same parameters and settings. -/
structure Agrees (fit other : CurveFit α) : Prop where
  data : fit.data = other.data
  stat : fit.stat = other.stat
  model : fit.model = other.model
  method : fit.method = other.method
  estimator : fit.estimator = other.estimator
  config : fit.config = other.config

omit [Scalar α] in
theorem agrees_iff {fit other : CurveFit α} : fit.Agrees other ↔ fit.bare = other.bare := by
  constructor
  · rintro ⟨hdata, hstat, hmodel, hmethod, hestimator, hconfig⟩
    unfold bare
    rw [hdata, hstat, hmodel, hmethod, hestimator, hconfig]
  · intro h
    injection h with hdata hmodel hstat hmethod hestimator hconfig
    exact ⟨hdata, hstat, hmodel, hmethod, hestimator, hconfig⟩

/-- One operation on a fit that keeps the effective errors or none. -/
structure Insensitive (fit : CurveFit α) (op : Operation α) : Prop where
  coherent : (fit.perform op).1.Coherent
  answer : (fit.bare.perform op).2 = (fit.perform op).2
  bare : (fit.bare.perform op).1.bare = (fit.perform op).1.bare
  data : (fit.perform op).1.data = fit.data
  stat : (fit.perform op).1.stat = fit.stat

theorem Coherent.insensitive (h : fit.Coherent) (op : Operation α) : fit.Insensitive op := by
  cases op with
  | startup => exact ⟨coherent_startup fit, rfl, rfl, rfl, rfl⟩
  | teardown => exact ⟨coherent_teardown fit, rfl, rfl, rfl, rfl⟩
  | minimise reuse =>
      obtain ⟨hanswer, hbare⟩ := h.minimise_bare reuse
      obtain ⟨ps, hps⟩ := exists_minimise_fst fit reuse
      have hdata : (fit.finished reuse).data = fit.data := by cases reuse <;> rfl
      have hstat : (fit.finished reuse).stat = fit.stat := by cases reuse <;> rfl
      refine ⟨?_, congrArg Answer.fitted hanswer, hbare, ?_, ?_⟩
      · change (fit.minimise reuse).1.Coherent
        rw [hps]
        exact (h.finished reuse).withParameters ps
      · change (fit.minimise reuse).1.data = _
        rw [hps]
        exact hdata
      · change (fit.minimise reuse).1.stat = _
        rw [hps]
        exact hstat
  | calcStat => exact ⟨h, congrArg Answer.stat h.calcStat_bare, rfl, rfl, rfl⟩
  | estimateErrors => exact ⟨h, congrArg Answer.estimated h.estimateErrors_bare, rfl, rfl, rfl⟩
  | setMethod method => exact ⟨h, rfl, rfl, rfl, rfl⟩
  | setEstimator estimator => exact ⟨h, rfl, rfl, rfl, rfl⟩
  | setConfig config => exact ⟨h, rfl, rfl, rfl, rfl⟩
  | assignThawed xs => exact ⟨h, rfl, rfl, rfl, rfl⟩
  | assign place x =>
      -- The bare fit has the same parameters, so both take the same turn.
      cases hx : (Fit.parameter fit place).assign x with
      | ok p =>
          have hassign : ∀ other : CurveFit α, Fit.parameter other place = Fit.parameter fit place →
              Fit.assign other place x =
                (Fit.modifyParameter other place fun _ => p, .ok ()) := by
            intro other hother
            rw [Fit.assign, hother, hx]
          constructor <;> simp only [perform, hassign fit rfl, hassign fit.bare rfl] <;>
            first | rfl | exact h
      | error e =>
          have hassign : ∀ other : CurveFit α, Fit.parameter other place = Fit.parameter fit place →
              Fit.assign other place x = (other, .error e) := by
            intro other hother
            rw [Fit.assign, hother, hx]
          constructor <;> simp only [perform, hassign fit rfl, hassign fit.bare rfl] <;>
            first | rfl | exact h
  | write place change => exact ⟨h, rfl, rfl, rfl, rfl⟩
  | interval mode options name refusal =>
      obtain ⟨hanswer, hbare, hcoherent⟩ :=
        IntervalScan.compute_bare h mode options name refusal
      have htwice := (IntervalScan.compute_bare (coherent_bare fit) mode options name refusal).2.1
      exact ⟨hcoherent, congrArg Answer.interval hanswer, htwice.trans hbare.symm,
        (agrees_iff.mpr hbare).data, (agrees_iff.mpr hbare).stat⟩
  | region mode options names refusal =>
      obtain ⟨hanswer, hbare, hcoherent⟩ := RegionScan.compute_bare h mode options names refusal
      have htwice := (RegionScan.compute_bare (coherent_bare fit) mode options names refusal).2.1
      exact ⟨hcoherent, congrArg Answer.region hanswer, htwice.trans hbare.symm,
        (agrees_iff.mpr hbare).data, (agrees_iff.mpr hbare).stat⟩

/-- One operation answers alike where the fits agree, and they agree afterwards. -/
theorem Agrees.perform {other : CurveFit α} (h : fit.Agrees other) (hfit : fit.Coherent)
    (hother : other.Coherent) (op : Operation α) :
    (fit.perform op).2 = (other.perform op).2 ∧
      (fit.perform op).1.Agrees (other.perform op).1 := by
  have hown := hfit.insensitive op
  have hthat := hother.insensitive op
  rw [agrees_iff] at h ⊢
  refine ⟨?_, ?_⟩
  · rw [← hown.answer, h, hthat.answer]
  · rw [← hown.bare, h, hthat.bare]

theorem Coherent.run (h : fit.Coherent) (ops : List (Operation α)) :
    (fit.run ops).1.Coherent ∧ (fit.run ops).1.data = fit.data ∧
      (fit.run ops).1.stat = fit.stat := by
  induction ops generalizing fit with
  | nil => exact ⟨h, rfl, rfl⟩
  | cons op rest ih =>
      have hop := h.insensitive op
      obtain ⟨hrest, hdata, hstat⟩ := ih hop.coherent
      exact ⟨hrest, hdata.trans hop.data, hstat.trans hop.stat⟩

theorem Agrees.run {other : CurveFit α} (h : fit.Agrees other) (hfit : fit.Coherent)
    (hother : other.Coherent) (ops : List (Operation α)) :
    (fit.run ops).2 = (other.run ops).2 ∧ (fit.run ops).1.Agrees (other.run ops).1 := by
  induction ops generalizing fit other with
  | nil => exact ⟨rfl, h⟩
  | cons op rest ih =>
      obtain ⟨hanswer, hafter⟩ := h.perform hfit hother op
      obtain ⟨hanswers, hlast⟩ :=
        ih hafter (hfit.insensitive op).coherent (hother.insensitive op).coherent
      exact ⟨congrArg₂ List.cons hanswer hanswers, hlast⟩

end CurveFit

/-- The data that can be made. -/
inductive Dataset.Made : Dataset α → Prop
  | make {name : String} {x y : List α} {d : Dataset α} : Dataset.make name x y = .ok d → Made d
  | withErrors {d d' : Dataset α} {errors : List α} :
      Made d → d.withErrors errors = .ok d' → Made d'

/-- As many values as coordinates, and as many errors, which are positive. -/
structure Dataset.Shaped (d : Dataset α) : Prop where
  length_eq : d.y.length = d.x.length
  errors : ∀ errors, d.errors = some errors → errors.length = d.x.length ∧ ∀ e ∈ errors, 0 < e

theorem Dataset.Made.shaped {d : Dataset α} (h : d.Made) : d.Shaped := by
  induction h with
  | @make name x y d hmake =>
      unfold Dataset.make at hmake
      split_ifs at hmake with hempty hlength
      obtain rfl := Except.ok.inj hmake
      exact ⟨(not_not.mp hlength).symm, fun errors herrors => nomatch herrors⟩
  | @withErrors d d' errors _ hwith ih =>
      unfold Dataset.withErrors at hwith
      split_ifs at hwith with hlength hinvalid
      obtain rfl := Except.ok.inj hwith
      refine ⟨ih.length_eq, fun errors' herrors => ?_⟩
      obtain rfl : errors = errors' := Option.some.inj herrors
      refine ⟨(not_not.mp hlength).trans ih.length_eq, fun e he => ?_⟩
      have hvalid : Dataset.validError e = true := by
        by_contra hnot
        exact hinvalid (List.any_eq_true.mpr ⟨e, he, by simpa using hnot⟩)
      simpa using (Bool.and_eq_true_iff.mp hvalid).2

/-- The errors that chi-square takes from the data are positive. -/
theorem Statistic.errorsOf_pos [Scalar.Monotone α] (data : List α) :
    ∀ e ∈ Statistic.errorsOf data, 0 < e := by
  intro e he
  obtain ⟨y, -, rfl⟩ := List.mem_map.mp he
  have hone : (0 : α) < 1 := Scalar.Monotone.zero_lt_one
  have hnan := Scalar.Ordered.isNaN_right (Scalar.Ordered.le_of_lt hone)
  exact Scalar.Monotone.sqrt_pos (Scalar.lt_of_lt_of_le hone (Scalar.le_larger hnan _))

theorem CurveFit.effectiveErrors_cases {errors : List α} (h : fit.effectiveErrors = some errors) :
    fit.data.errors = some errors ∨ errors = Statistic.errorsOf fit.data.y := by
  unfold CurveFit.effectiveErrors at h
  cases hgiven : fit.data.errors with
  | some given =>
      rw [hgiven] at h
      exact .inl h
  | none =>
      simp only [hgiven] at h
      split_ifs at h
      exact .inr (Option.some.inj h).symm

theorem CurveFit.length_effectiveErrors {errors : List α} (hdata : fit.data.Shaped)
    (h : fit.effectiveErrors = some errors) : errors.length = fit.data.x.length := by
  rcases effectiveErrors_cases h with hgiven | rfl
  · exact (hdata.errors errors hgiven).1
  · exact (List.length_map _).trans hdata.length_eq

theorem CurveFit.effectiveErrors_shaped [Scalar.Monotone α] {errors : List α}
    (hdata : fit.data.Shaped) (h : fit.effectiveErrors = some errors) :
    errors.length = fit.data.x.length ∧ ∀ e ∈ errors, 0 < e := by
  refine ⟨length_effectiveErrors hdata h, ?_⟩
  rcases effectiveErrors_cases h with hgiven | rfl
  · exact (hdata.errors errors hgiven).2
  · exact Statistic.errorsOf_pos fit.data.y

/-- A fit of data that can be made, as it is before anything is done with it. -/
structure CurveFit.Built (fit : CurveFit α) : Prop where
  data : fit.data.Made
  keptErrors : fit.keptErrors = none

theorem CurveFit.Built.coherent (h : fit.Built) : fit.Coherent := by
  intro errors hkept
  rw [h.keptErrors] at hkept
  cases hkept

/-- Whatever has been done with a fit, the errors that it keeps are those that would be computed
again, so the statistic works with these. If there are any there is one for each point, all of them
positive, and with chi-square there are. Fits of the same data that agree on their parameters and
settings answer alike from then on, whatever was done with them before. Scans of them make the same
plans, and these deliver the same answers, in whatever order the points are taken. -/
theorem answers_whatever_the_history [Scalar.Monotone α] {other : CurveFit α} (hfit : fit.Built)
    (hother : other.Built) (before before' : List (Operation α)) :
    let reached := (fit.run before).1
    let reached' := (other.run before').1
    (reached.keptErrors = none ∨ reached.keptErrors = reached.effectiveErrors) ∧
      reached.statErrors = reached.effectiveErrors ∧
      (∀ errors, reached.effectiveErrors = some errors →
        errors.length = reached.data.x.length ∧ ∀ e ∈ errors, 0 < e) ∧
      (reached.stat = .chi2 → ∃ errors, reached.effectiveErrors = some errors) ∧
      (reached.Agrees reached' →
        (∀ ops : List (Operation α),
          (reached.run ops).2 = (reached'.run ops).2 ∧
            (reached.run ops).1.Agrees (reached'.run ops).1) ∧
        (∀ (n : Nat) (names : Vector String n) (mode : ScanMode) (context : String)
          (req : GridRequest α n) (fast : Bool),
          (Plan.prepare reached names mode context req fast).2 =
            (Plan.prepare reached' names mode context req fast).2) ∧
        ∀ (n : Nat) (plan : Plan α n) (workers : Nat) (out : Except (FitError α) (List α)),
          0 < workers →
            (plan.Delivers reached workers out ↔ plan.Delivers reached' workers out)) := by
  intro reached reached'
  obtain ⟨hcoherent, hdata, hstat⟩ := hfit.coherent.run before
  have hcoherent' := (hother.coherent.run before').1
  refine ⟨?_, hcoherent.statErrors, fun errors herrors => ?_, fun hchi => ?_, fun hagrees =>
    ⟨hagrees.run hcoherent hcoherent', fun n names mode context req fast => ?_,
      fun n plan workers out hworkers => ?_⟩⟩
  · cases hkept : reached.keptErrors with
    | none => exact .inl rfl
    | some errors => exact .inr (hcoherent errors hkept).symm
  · have hshaped : reached.data.Shaped := hdata ▸ hfit.data.shaped
    exact CurveFit.effectiveErrors_shaped hshaped herrors
  · unfold CurveFit.effectiveErrors
    cases reached.data.errors with
    | some given => exact ⟨given, rfl⟩
    | none =>
        rw [hchi]
        exact ⟨_, rfl⟩
  · rw [← Plan.prepare_bare hcoherent, ← Plan.prepare_bare hcoherent',
      CurveFit.agrees_iff.mp hagrees]
  · rw [← plan.delivers_bare reached hworkers, ← plan.delivers_bare reached' hworkers,
      CurveFit.agrees_iff.mp hagrees]

/-- Counts at two places, as they are. -/
def counts : CurveFit Float where
  data := { name := "counts", x := [0, 1], y := [4, 0] }
  model :=
    { name := "const"
      parameters := [⟨"c0", 2, 0, 9, false⟩]
      curve := fun values _ => values.getD 0 0 }
  stat := .chi2
  config := { tolerance := 0 }

theorem built_counts : counts.Built := by
  have hmake : Dataset.make "counts" ([0, 1] : List Float) [4, 0] = .ok counts.data := rfl
  exact ⟨.make hmake, rfl⟩

/-- The fit of the counts answers alike in the middle of a session and after one. -/
theorem counts_answer_alike :
    let during := (counts.run [.startup, .write 0 Parameter.freeze, .write 0 Parameter.thaw]).1
    let ended := (counts.run [.startup, .calcStat, .teardown]).1
    during.keptErrors = some [2, 1] ∧ ended.keptErrors = none ∧
      ∀ ops : List (Operation Float), (during.run ops).2 = (ended.run ops).2 := by
  intro during ended
  have hagrees : during.Agrees ended := ⟨rfl, rfl, rfl, rfl, rfl, rfl⟩
  have hall := answers_whatever_the_history built_counts built_counts
    [.startup, .write 0 Parameter.freeze, .write 0 Parameter.thaw] [.startup, .calcStat, .teardown]
  refine ⟨by decide +kernel, rfl, fun ops => ((hall.2.2.2.2 hagrees).1 ops).1⟩

end ParameterScan
