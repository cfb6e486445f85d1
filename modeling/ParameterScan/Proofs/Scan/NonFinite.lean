import ParameterScan.Proofs.Fit.Crossing
import ParameterScan.Proofs.Scan.Comparison
import ParameterScan.Proofs.Scan.Optimizer

/-!
# When a statistic is called non-finite

An error that says so carries a value of the statistic. Wherever the value was computed by the step
that failed, it is indeed not finite. There is one place where it was not: damped least squares has
no result when there are no residuals at the clamped start, and the error carries the statistic at
the start as it was before. For a start that is not moved the two are one, and where a residual is
not finite the sum of squares is not either. So the value can be finite only where the start of a
search by damped least squares lies outside the limits, or is a zero of the other sign at a limit.
-/
namespace ParameterScan

open Scalar (isFinite)

variable {α : Type} [Scalar α] {n : Nat}

/-- If the error is about the statistic, then its value is not finite. -/
def FitError.Honest : FitError α → Prop
  | .nonFiniteStat value => isFinite value = false
  | _ => True

def ScanError.Honest : ScanError α → Prop
  | .fit e => e.Honest
  | _ => True

theorem ScanError.Early.honest {e : ScanError α} (h : e.Early) : e.Honest := by
  cases e with
  | fit e => cases e <;> first | exact h | trivial
  | _ => trivial

theorem FitError.OfAssignment.honest {e : FitError α} (h : e.OfAssignment) : e.Honest := by
  cases e <;> trivial

/-- The sum of squares of numbers is finite only if they are. -/
theorem Scalar.isFinite_of_sumSq [Scalar.Monotone α] {xs : List α}
    (h : isFinite (sumSq xs) = true) : ∀ x ∈ xs, isFinite x = true := by
  -- A sum that has become infinite or a NaN stays so, whatever is added.
  have hfold : ∀ total : α, isFinite ((xs.map fun x => x * x).foldl (· + ·) total) = true →
      isFinite total = true ∧ ∀ x ∈ xs, isFinite x = true := by
    clear h
    induction xs with
    | nil => exact fun _ h => ⟨h, by simp⟩
    | cons x xs ih =>
        intro total h
        obtain ⟨hsum, hxs⟩ := ih _ h
        obtain ⟨htotal, hsquare⟩ := Monotone.isFinite_of_add hsum
        exact ⟨htotal, List.forall_mem_cons.mpr ⟨(Monotone.isFinite_of_mul hsquare).1, hxs⟩⟩
  exact (hfold _ h).2

omit [Scalar α] in
theorem Parameters.thawed_modify_frozen {ps : List (Parameter α)} {i : Nat}
    {f : Parameter α → Parameter α} (h : ∀ p, (f p).frozen = true) :
    thawed (ps.modify i f) ⊆ thawed ps := by
  intro p hp
  obtain ⟨hmem, hthawed⟩ := List.mem_filter.mp hp
  obtain ⟨j, hj⟩ := List.mem_iff_getElem?.mp hmem
  rw [List.getElem?_modify] at hj
  obtain ⟨q, hq, rfl⟩ := Option.map_eq_some_iff.mp hj
  split_ifs at hthawed ⊢ with hij
  · rw [h q] at hthawed
    cases hthawed
  · exact List.mem_filter.mpr ⟨List.mem_of_getElem? hq, hthawed⟩

/-- A search by damped least squares has a result if there are residuals where it starts. -/
theorem DampedLeastSquares.search_eq_none_iff (resid : List α → Option (List α)) (x0 : List α)
    (box : Box α) (cfg : SearchConfig α) :
    search resid x0 box cfg = none ↔ resid (box.clamp x0) = none := by
  simp [search, searchWith]

namespace CurveFit

variable {fit : CurveFit α}

/-- A search by damped least squares that cannot start inside the limits, in a fit whose statistic
at the values that it has is the given finite one. -/
structure Misreports (fit : CurveFit α) (value : α) : Prop where
  thawed : Parameters.thawedValues fit.parameters ≠ []
  method_eq : fit.method = .levmar
  residual : fit.stat.isLikelihood = false
  missing : fit.residualsAt fit.statErrors
    (fit.box.clamp (Parameters.thawedValues fit.parameters)) = none
  stat_eq : fit.statAt fit.statErrors (Parameters.thawedValues fit.parameters) = value
  finite : isFinite value = true

/-- With the given optimizer a fit may search from another place than it is at. -/
structure Astray (fit : CurveFit α) (m : Optimizer) : Prop where
  method_eq : m = .levmar
  residual : fit.stat.isLikelihood = false
  moved : ∃ p ∈ Parameters.thawed fit.parameters, p.clamp p.value ≠ p.value

theorem Astray.mono {other : CurveFit α} {m : Optimizer} (h : other.Astray m)
    (hstat : other.stat = fit.stat)
    (hthawed : Parameters.thawed other.parameters ⊆ Parameters.thawed fit.parameters) :
    fit.Astray m := by
  obtain ⟨p, hp, hmoved⟩ := h.moved
  exact ⟨h.method_eq, hstat ▸ h.residual, p, hthawed hp, hmoved⟩

theorem search_eq_error_iff {value : α} :
    fit.search = .error (.nonFiniteStat value) ↔
      fit.method = .levmar ∧ fit.stat.isLikelihood = false ∧
        fit.residualsAt fit.statErrors
          (fit.box.clamp (Parameters.thawedValues fit.parameters)) = none ∧
        fit.statAt fit.statErrors (Parameters.thawedValues fit.parameters) = value := by
  have hnone := DampedLeastSquares.search_eq_none_iff (fit.residualsAt fit.statErrors)
    (Parameters.thawedValues fit.parameters) fit.box fit.config
  unfold search
  cases hmethod : fit.method with
  | nelderMead => simp
  | monteCarlo => simp
  | levmar =>
      cases hlikelihood : fit.stat.isLikelihood with
      | true => simp
      | false =>
          simp only [Bool.false_eq_true, if_false, true_and, ← hnone]
          cases DampedLeastSquares.search (fit.residualsAt fit.statErrors)
            (Parameters.thawedValues fit.parameters) fit.box fit.config <;> simp

/-- Of the two errors about the statistic one carries the value that the search has ended with. -/
theorem minimum_eq_error_iff {value : α} (hvalue : isFinite value = true) :
    fit.minimum = .error (.nonFiniteStat value) ↔ fit.Misreports value := by
  rw [minimum_eq]
  constructor
  · intro h
    split_ifs at h with hempty
    · cases Except.error.inj h
    · cases hsearch : fit.search with
      | error e =>
          rw [hsearch] at h
          obtain ⟨hmethod, hresidual, hmissing, hstat⟩ :=
            search_eq_error_iff.mp (hsearch.trans (congrArg _ (Except.error.inj h)))
          exact ⟨by simpa using hempty, hmethod, hresidual, hmissing, hstat, hvalue⟩
      | ok m =>
          rw [hsearch] at h
          simp only at h
          split_ifs at h with hfinite hconverged
          · obtain rfl : m.value = value := FitError.nonFiniteStat.inj (Except.error.inj h)
            simp [hvalue] at hfinite
          · cases Except.error.inj h
  · intro h
    rw [if_neg (by simpa using h.thawed),
      search_eq_error_iff.mpr ⟨h.method_eq, h.residual, h.missing, h.stat_eq⟩]

/-- In a minimisation that succeeds only the assignments are left to fail. -/
theorem minimise_eq_error_iff {value : α} (hvalue : isFinite value = true) (reuse : Bool) :
    (fit.minimise reuse).2 = .error (.nonFiniteStat value) ↔
      (fit.started reuse).Misreports value := by
  rw [← minimum_eq_error_iff hvalue, minimise_eq]
  cases (fit.started reuse).minimum with
  | error e => simp
  | ok m =>
      have hassign := Parameters.fails_assignThawed fit.parameters m.point
      cases h : (Parameters.assignThawed fit.parameters m.point).2 with
      | ok _ => simp [h, Except.map]
      | error e =>
          simp only [h, Except.map, reduceCtorEq, iff_false, Except.error.injEq]
          rintro rfl
          exact hassign _ h

theorem honest_calcStat (fit : CurveFit α) : Fails FitError.Honest fit.calcStat := by
  refine fit.fails_calcStat.mono ?_
  rintro _ ⟨value, hvalue, rfl⟩
  exact hvalue

theorem honest_deviations (fit : CurveFit α) : Fails FitError.Honest fit.deviations := by
  unfold deviations deviationsWith
  simp only
  split_ifs
  · exact fails_error_iff.mpr trivial
  · split <;> exact fails_ok _

variable [Scalar.Monotone α]

/-- Where a residual is missing the statistic is not finite. -/
theorem isFinite_statAt {errors : Option (List α)} {xs : List α}
    (hresidual : fit.stat.isLikelihood = false) (hmissing : fit.residualsAt errors xs = none) :
    isFinite (fit.statAt errors xs) = false := by
  obtain ⟨r, hr⟩ : ∃ r, fit.stat.residuals fit.data.y (fit.curveAt xs) errors = some r := by
    cases hstat : fit.stat with
    | chi2 => exact ⟨_, rfl⟩
    | leastSquares => exact ⟨_, rfl⟩
    | cash => simp [hstat, Statistic.isLikelihood] at hresidual
    | cstat => simp [hstat, Statistic.isLikelihood] at hresidual
  have hsum : fit.statAt errors xs = Scalar.sumSq r := Statistic.value_eq_sumSq hr
  rw [hsum, Bool.eq_false_iff]
  intro hfinite
  rw [residualsAt, hr, Option.filter_some, if_pos] at hmissing
  · cases hmissing
  · exact List.all_eq_true.mpr (Scalar.isFinite_of_sumSq hfinite)

/-- A start that stays where it is does not lead to the wrong value. -/
theorem Misreports.astray {value : α} (h : fit.Misreports value) : fit.Astray fit.method := by
  refine ⟨h.method_eq, h.residual, ?_⟩
  by_contra hmoved
  simp only [not_exists, not_and, not_not] at hmoved
  have hmissing := h.missing
  rw [clamp_thawedValues_iff.mpr hmoved] at hmissing
  have hinfinite := isFinite_statAt h.residual hmissing
  rw [h.stat_eq, h.finite] at hinfinite
  cases hinfinite

omit [Scalar.Monotone α] in
/-- What has to be shown of an error is shown where it has a finite value. -/
theorem fails_of_finite {ρ : Type} {x : Except (FitError α) ρ} {P : Prop}
    (h : ∀ value, isFinite value = true → x = .error (.nonFiniteStat value) → P) :
    Fails (fun e => e.Honest ∨ P) x := by
  intro e he
  cases e with
  | nonFiniteStat value =>
      cases hvalue : isFinite value with
      | false => exact .inl hvalue
      | true => exact .inr (h value hvalue he)
  | _ => exact .inl trivial

theorem honest_minimum (fit : CurveFit α) :
    Fails (fun e => e.Honest ∨ fit.Astray fit.method) fit.minimum :=
  fails_of_finite fun _ hvalue h => ((minimum_eq_error_iff hvalue).mp h).astray

theorem honest_minimise (fit : CurveFit α) (reuse : Bool) :
    Fails (fun e => e.Honest ∨ fit.Astray fit.method) (fit.minimise reuse).2 := by
  refine fails_of_finite fun _ hvalue h => ?_
  have hastray := ((minimise_eq_error_iff hvalue reuse).mp h).astray
  cases reuse with
  | true => exact hastray
  | false => exact hastray.mono rfl fun _ => id

/-- A parameter is held at the point where a profile is taken, the others start where they are. -/
theorem honest_profile (fit : CurveFit α) (i : Nat) (x : α) :
    Fails (fun e => e.Honest ∨ fit.Astray fit.method) (fit.profile i x) := by
  have hthawed : Parameters.thawed (fit.pinned i x).parameters ⊆
      Parameters.thawed fit.parameters :=
    Parameters.thawed_modify_frozen fun _ => rfl
  unfold profile
  simp only
  split_ifs
  · exact (honest_calcStat _).mono fun _ => .inl
  · have hpinned := (fit.pinned i x).honest_minimum
    exact (hpinned.mono fun _ h => h.imp_right fun hastray => hastray.mono rfl hthawed).map _

theorem honest_estimateErrors (fit : CurveFit α) :
    Fails (fun e => e.Honest ∨ fit.estimator = .confidence ∧ fit.Astray fit.method)
      fit.estimateErrors := by
  unfold estimateErrors
  cases hestimator : fit.estimator with
  | covariance => exact (fit.honest_deviations.mono fun _ => .inl).map _
  | confidence =>
      simp only [true_and]
      refine ((honest_calcStat fit).mono fun _ => .inl).bind fun best _ => ?_
      refine (fit.honest_deviations.mono fun _ => .inl).bind fun sigmas _ => ?_
      refine (fails_mapM fun place _ => ?_).bind fun _ _ => fails_ok _
      obtain ⟨⟨p, i⟩, sigma⟩ := place
      have hoffset (direction step limit level : α) :
          Fails (fun e => e.Honest ∨ fit.Astray fit.method)
            (Crossing.offset? (fit.profile i) p.value direction step limit level) := by
        intro e he
        obtain ⟨xs, hxs⟩ := Crossing.exists_consults_offset? (fit.profile i) p.value direction
          step limit level
        obtain ⟨x, -, hx⟩ := hxs.exists_of_error e he
        exact fit.honest_profile i x e hx
      exact (hoffset _ _ _ _).bind fun _ _ => (hoffset _ _ _ _).bind fun _ _ => fails_ok _

end CurveFit

section Scans

variable [Scalar.Monotone α] {fit : CurveFit α}

/-- At a point the other parameters start where they are in the fit. -/
theorem Evaluator.honest_eval (e : Evaluator α n) (fit : CurveFit α) {mode : ScanMode}
    (method : Option Optimizer) (hmode : e.refits = true → mode = .projection) (p : Vector α n) :
    Fails (fun error => error.Honest ∨ mode = .projection ∧ fit.Astray (method.getD fit.method))
      (e.eval (Held.acquire fit mode e.targets.toList method).fit p).2 := by
  cases hrefits : e.refits with
  | false =>
      generalize (Held.acquire fit mode e.targets.toList method).fit = held
      have hwrite := Parameters.fails_writeAll held.parameters (e.writes p)
      rw [eval_snd]
      cases h : (Parameters.writeAll held.parameters (e.writes p)).2 with
      | error error => exact fails_error_iff.mpr (.inl (hwrite error h).honest)
      | ok _ =>
          simp only [read, hrefits, Bool.false_eq_true, if_false]
          exact (CurveFit.honest_calcStat _).mono fun _ => .inl
  | true =>
      obtain rfl := hmode hrefits
      have hwrite := Parameters.fails_writeAll fit.parameters (e.writes p)
      rw [eval_refits hrefits, CurveFit.projected_eq]
      cases h : (Parameters.writeAll fit.parameters (e.writes p)).2 with
      | error error => exact fails_error_iff.mpr (.inl (hwrite error h).honest)
      | ok _ =>
          -- What is written to is frozen, so a thawed value is the one that the fit has.
          have hthawed : Parameters.thawed (Parameters.freezeAt e.targets.toList
              (Parameters.writeAll fit.parameters (e.writes p)).1) ⊆
                Parameters.thawed fit.parameters :=
            List.Subset.trans
              (Parameters.thawed_freezeAt_writeAll fun w hw => (List.of_mem_zip hw).1)
              (Parameters.thawed_freezeAt_subset e.targets.toList fit.parameters)
          refine Fails.map ((CurveFit.honest_minimise _ false).mono fun _ herror => ?_) _
          exact herror.imp_right fun hastray => ⟨rfl, hastray.mono rfl hthawed⟩

/-- However the points are shared out. -/
theorem Plan.honest_delivers {names : Vector String n} {mode : ScanMode} {context : String}
    {req : GridRequest α n} {fast : Bool} {plan : Plan α n} {workers : Nat}
    {out : Except (FitError α) (List α)}
    (hplan : (prepare fit names mode context req fast).2 = .ok plan)
    (h : plan.Delivers fit workers out) :
    Fails (fun e => e.Honest ∨ mode = .projection ∧ fit.Astray (fit.scanMethod fast)) out := by
  have hsound := prepare_sound hplan
  have hpoint := h.fails ((plan.evaluator fit).honest_eval fit plan.method mode_of_refits)
  refine hpoint.mono fun e he => he.imp_right ?_
  rintro ⟨hprojection, hastray⟩
  have hprojection' := hsound.mode_eq.symm.trans hprojection
  rw [hsound.method_eq hprojection'] at hastray
  exact ⟨hprojection', hastray⟩

theorem Plan.honest_execute {names : Vector String n} {mode : ScanMode} {context : String}
    {req : GridRequest α n} {fast : Bool} {plan : Plan α n}
    (hplan : (prepare fit names mode context req fast).2 = .ok plan) (workers : Option Nat)
    (refusal : PoolRefusal) :
    Fails (fun e => e.Honest ∨ mode = .projection ∧ fit.Astray (fit.scanMethod fast))
      (plan.execute fit workers refusal).2 := by
  intro e he
  rcases execute_error he with ⟨cause, rfl⟩ | ⟨reason, rfl⟩
  · exact honest_delivers hplan (delivers_of_execute he) cause rfl
  · exact .inl trivial

theorem IntervalScan.honest_compute (mode : ScanMode) (options : IntervalOptions α)
    (fit : CurveFit α) (name : String) (refusal : PoolRefusal) :
    Fails (fun e => e.Honest ∨ mode = .projection ∧ fit.Astray (fit.scanMethod options.fast))
      (compute mode options fit name refusal).2 := by
  intro e he
  obtain hearly | ⟨plan, hvalidate, hexecute⟩ := compute_eq_error he
  · exact .inl hearly.honest
  · obtain ⟨req, -, hplan⟩ := prepare_of_validate hvalidate
    exact Plan.honest_execute hplan options.workers refusal e hexecute

theorem RegionScan.honest_compute (mode : ScanMode) (options : RegionOptions α)
    (fit : CurveFit α) (names : Vector String 2) (refusal : PoolRefusal) :
    Fails (fun e => e.Honest ∨ mode = .projection ∧ fit.Astray (fit.scanMethod options.fast))
      (compute mode options fit names refusal).2 := by
  intro e he
  obtain hearly | ⟨plan, levels, hvalidate, hexecute⟩ := compute_eq_error he
  · exact .inl hearly.honest
  · obtain ⟨req, -, hplan⟩ := prepare_of_validate hvalidate
    exact Plan.honest_execute hplan options.workers refusal e hexecute

end Scans

/-- The statistic alone and an estimate by covariance are only called non-finite when they are. So
are a minimisation, an estimate by confidence and a projection, unless they go by damped least
squares from a value that clamping moves; a projection also in whatever order it takes its points.
What a minimisation says of a finite value, it says exactly where there are no residuals at the
clamped start. -/
theorem nonFiniteStat_honest_unless_astray [Scalar.Monotone α] (fit : CurveFit α) (value : α) :
    (fit.calcStat = .error (.nonFiniteStat value) → isFinite value = false) ∧
    (∀ reuse, isFinite value = true →
      ((fit.minimise reuse).2 = .error (.nonFiniteStat value) ↔
        (fit.started reuse).Misreports value)) ∧
    (∀ reuse, (fit.minimise reuse).2 = .error (.nonFiniteStat value) →
      isFinite value = false ∨ fit.Astray fit.method) ∧
    (fit.estimateErrors = .error (.nonFiniteStat value) →
      isFinite value = false ∨ fit.estimator = .confidence ∧ fit.Astray fit.method) ∧
    (∀ (mode : ScanMode) (options : IntervalOptions α) (name : String) (refusal : PoolRefusal),
      (IntervalScan.compute mode options fit name refusal).2 =
        .error (.fit (.nonFiniteStat value)) →
      isFinite value = false ∨ mode = .projection ∧ fit.Astray (fit.scanMethod options.fast)) ∧
    (∀ (mode : ScanMode) (options : RegionOptions α) (names : Vector String 2)
      (refusal : PoolRefusal),
      (RegionScan.compute mode options fit names refusal).2 =
        .error (.fit (.nonFiniteStat value)) →
      isFinite value = false ∨ mode = .projection ∧ fit.Astray (fit.scanMethod options.fast)) ∧
    ∀ (n : Nat) (names : Vector String n) (mode : ScanMode) (context : String)
      (req : GridRequest α n) (fast : Bool) (plan : Plan α n) (workers : Nat),
      (Plan.prepare fit names mode context req fast).2 = .ok plan →
      plan.Delivers fit workers (.error (.nonFiniteStat value)) →
      isFinite value = false ∨ mode = .projection ∧ fit.Astray (fit.scanMethod fast) :=
  ⟨fun h => fit.honest_calcStat _ h,
    fun reuse hvalue => CurveFit.minimise_eq_error_iff hvalue reuse,
    fun reuse h => fit.honest_minimise reuse _ h,
    fun h => fit.honest_estimateErrors _ h,
    fun mode options name refusal h =>
      IntervalScan.honest_compute mode options fit name refusal _ h,
    fun mode options names refusal h =>
      RegionScan.honest_compute mode options fit names refusal _ h,
    fun _ _ _ _ _ _ _ _ hplan h => Plan.honest_delivers hplan h _ rfl⟩

/-- A line whose intercept is a root, which is at one where the limits leave no root. -/
def rootLine : CurveFit Float where
  data := { name := "d", x := [1], y := [3], errors := some [1] }
  model :=
    { name := "sqrtline"
      parameters := [⟨"c0", 1, -4, -1, false⟩, ⟨"c1", 0, -4, 4, false⟩]
      curve := fun values x => Scalar.sqrt (values.getD 0 0) + values.getD 1 0 * x }
  stat := .chi2
  config := { tolerance := 1e-10 }

def slopeSweep : IntervalOptions Float where
  lower := some (.single 0)
  upper := some (.single 2)
  count := .single 2
  factor := 1

/-- The root at a value within its limits is not a number. -/
theorem rootLine_honest_or_astray :
    (∃ value, (rootLine.pinned 0 (-1)).calcStat = .error (.nonFiniteStat value) ∧
      isFinite value = false) ∧
    isFinite (4 : Float) = true ∧
    (rootLine.minimise false).2 = .error (.nonFiniteStat 4) ∧
    (rootLine.started false).Misreports 4 ∧
    (IntervalScan.compute .projection slopeSweep rootLine "c1").2 =
      .error (.fit (.nonFiniteStat 4)) ∧
    rootLine.Astray (rootLine.scanMethod true) := by
  have hfinite : isFinite (4 : Float) = true := by decide
  have hpinned : (rootLine.pinned 0 (-1)).calcStat =
      .error (.nonFiniteStat ((rootLine.pinned 0 (-1)).statAt (some [1]) [0])) := by decide +kernel
  have hminimise : (rootLine.minimise false).2 = .error (.nonFiniteStat 4) := by decide +kernel
  have hscan : (IntervalScan.compute .projection slopeSweep rootLine "c1").2 =
      .error (.fit (.nonFiniteStat 4)) := by decide +kernel
  obtain ⟨-, hiff, -, -, hinterval, -⟩ := nonFiniteStat_honest_unless_astray rootLine 4
  obtain ⟨-, hastray⟩ := (hinterval _ _ _ _ hscan).resolve_left (by simp [hfinite])
  exact ⟨⟨_, hpinned, (nonFiniteStat_honest_unless_astray _ _).1 hpinned⟩, hfinite, hminimise,
    (hiff false hfinite).mp hminimise, hscan, hastray⟩

/-- A minimisation and a projection call four a non-finite value. -/
theorem rootLine_called_nonFinite :
    ∃ value : Float, isFinite value = true ∧
      (rootLine.minimise false).2 = .error (.nonFiniteStat value) ∧
      (IntervalScan.compute .projection slopeSweep rootLine "c1").2 =
        .error (.fit (.nonFiniteStat value)) :=
  ⟨4, by decide, by decide +kernel, by decide +kernel⟩

end ParameterScan
