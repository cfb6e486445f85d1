import ParameterScan.Proofs.Fit.Contract
import ParameterScan.Proofs.Scan.Refit

/-!
# A projection lies nowhere above the uncertainty

At a point of the grid both scans have the targets at the same values. The uncertainty is the
statistic with the other parameters where they are; the projection fits them, starting from there,
and no optimizer goes up. With nothing left to fit the two are one computation. It is not asked that
the search stays inside the limits: one that ends outside is refused, and there is no value to
compare.

A search starts from the clamped values, and these are the given ones but for the sign of a zero: a
zero at a limit of zero takes the sign of the limit. So the statistic at the start is the one that
the uncertainty reports, unless a value is moved under a curve that tells the two zeros apart. There
the projection may lie above. Only parameters other than the targets count: a target is written to.
-/
namespace ParameterScan

variable {α : Type} [Scalar α] {n : Nat} {fit : CurveFit α}

theorem clampEach_map (ps : List (Parameter α)) :
    Box.clampEach (ps.map Parameter.lower) (ps.map Parameter.upper) (ps.map Parameter.value) =
      ps.map fun p => p.clamp p.value := by
  induction ps with
  | nil => rfl
  | cons p ps ih => simp only [List.map_cons, Box.clampEach, ih, Parameter.clamp]

namespace CurveFit

/-- No thawed value is moved when the start is clamped. -/
theorem clamp_thawedValues_iff :
    fit.box.clamp (Parameters.thawedValues fit.parameters) =
        Parameters.thawedValues fit.parameters ↔
      ∀ p ∈ Parameters.thawed fit.parameters, p.clamp p.value = p.value := by
  unfold Box.clamp box Parameters.thawedValues
  rw [clampEach_map]
  exact List.map_inj_left

/-- With fewer parameters thawed a search starts in place as well. -/
theorem StartsInPlace.of_subset {other : CurveFit α} (h : fit.StartsInPlace)
    (hcurve : other.model.curve = fit.model.curve)
    (hthawed : Parameters.thawed other.parameters ⊆ Parameters.thawed fit.parameters) :
    other.StartsInPlace := by
  rcases h with hnumeric | hclamp
  · refine .inl fun values values' hvalues x => ?_
    rw [hcurve]
    exact hnumeric values values' hvalues x
  · exact .inr (clamp_thawedValues_iff.mpr fun p hp =>
      clamp_thawedValues_iff.mp hclamp p (hthawed hp))

/-- No thawed value other than those of the targets is moved before a search, or the curve does not
notice. -/
def OthersStartInPlace (fit : CurveFit α) (targets : List Nat) : Prop :=
  (fit.withParameters (Parameters.freezeAt targets fit.parameters)).StartsInPlace

theorem StartsInPlace.others (h : fit.StartsInPlace) (targets : List Nat) :
    fit.OthersStartInPlace targets :=
  h.of_subset rfl (Parameters.thawed_freezeAt_subset targets fit.parameters)

variable [Scalar.Ordered α] [Scalar.Congruent α]

/-- A minimisation that succeeds does not end above the statistic that it starts from. The limits
need not be closed under going half way. -/
theorem stat_le_of_minimise (hfit : fit.Coherent) (hinside : fit.Inside)
    (hplace : fit.StartsInPlace) {reuse : Bool} {s y : α} (hs : fit.calcStat = .ok s)
    (hy : (fit.minimise reuse).2.map FitResult.stat = .ok y) : y ≤ s := by
  rw [minimise_stat] at hy
  cases hminimum : (fit.started reuse).minimum with
  | error e =>
      rw [hminimum] at hy
      cases hy
  | ok m =>
      rw [hminimum] at hy
      obtain ⟨-, -, rfl⟩ := exists_of_map_eq_ok hy
      have hfinds := finds_of_minimum (Box.retains_length _ _) hminimum
      obtain ⟨hstat, hfinite⟩ := calcStat_eq_ok hs
      refine hfinds.le hfinite (startStat_alike ?_ ?_ ?_)
      · cases reuse <;> exact hinside
      · cases reuse <;> exact hplace
      · rw [hfit.statErrors_started, ← hstat]
        cases reuse <;> rfl

/-- The fit that a projection minimises at a point: written to, frozen, with its optimizer. -/
def projected (fit : CurveFit α) (method : Optimizer) (writes : List (Nat × α))
    (targets : List Nat) : CurveFit α :=
  { fit.withParameters (Parameters.freezeAt targets
      (Parameters.writeAll fit.parameters writes).1) with method }

omit [Scalar.Ordered α] [Scalar.Congruent α] in
/-- Freezing and another optimizer do not show in the statistic. -/
theorem calcStat_projected (fit : CurveFit α) (method : Optimizer) (writes : List (Nat × α))
    (targets : List Nat) :
    (fit.projected method writes targets).calcStat =
      (fit.withParameters (Parameters.writeAll fit.parameters writes).1).calcStat :=
  calcStat_congr rfl rfl rfl rfl (map_value_of_thaw (map_thaw_freezeAt targets _))

omit [Scalar.Ordered α] [Scalar.Congruent α] in
theorem projected_eq (fit : CurveFit α) (method : Optimizer) (writes : List (Nat × α))
    (targets : List Nat) :
    Fit.withMethod (Held.freezeFor .projection targets
      (fit.withParameters (Parameters.writeAll fit.parameters writes).1)) method =
        fit.projected method writes targets := by
  rw [Held.freezeFor_projection]
  rfl

omit [Scalar.Ordered α] [Scalar.Congruent α] in
/-- At one point, with no other parameter thawed, both modes compute the statistic. -/
theorem byHand_projection_eq {fast : Bool} {targets : List Nat} (values : List α)
    (hothers : fit.othersThawed targets = false) :
    fit.byHand .projection fast targets values = fit.byHand .uncertainty fast targets values := by
  simp only [byHand_eq, hothers, Bool.false_eq_true, and_false, if_false]

omit [Scalar.Ordered α] [Scalar.Congruent α] in
/-- The uncertainty at a point is the statistic with the targets written to. -/
theorem byHand_uncertainty {fast : Bool} {targets : List Nat} {values : List α} {s : α}
    (hs : fit.byHand .uncertainty fast targets values = .ok s) :
    (Parameters.writeAll fit.parameters (targets.zip values)).2 = .ok () ∧
      (fit.withParameters (Parameters.writeAll fit.parameters (targets.zip values)).1).calcStat =
        .ok s := by
  rw [byHand_eq] at hs
  cases hwrite : (Parameters.writeAll fit.parameters (targets.zip values)).2 with
  | error e =>
      rw [hwrite] at hs
      cases hs
  | ok _ =>
      simp only [hwrite, reduceCtorEq, false_and, if_false] at hs
      exact ⟨rfl, hs⟩

/-- At one point, the projection is no higher than the uncertainty. -/
theorem byHand_le (hfit : fit.Coherent) (hinside : fit.Inside) {fast : Bool} {targets : List Nat}
    {values : List α} {y s : α} (hplace : fit.OthersStartInPlace targets)
    (hy : fit.byHand .projection fast targets values = .ok y)
    (hs : fit.byHand .uncertainty fast targets values = .ok s) : y ≤ s := by
  obtain ⟨hwrite, hstat⟩ := byHand_uncertainty hs
  cases hothers : fit.othersThawed targets with
  | false =>
      rw [byHand_projection_eq values hothers, hs] at hy
      obtain rfl : s = y := Except.ok.inj hy
      exact Scalar.le_refl_of_not_nan (Scalar.Ordered.isNaN_of_isFinite (calcStat_eq_ok hstat).2)
  | true =>
      rw [byHand_eq] at hy
      simp only [hwrite, projected_eq, hothers, and_self, if_true] at hy
      have hthawed : Parameters.thawed (Parameters.freezeAt targets
          (Parameters.writeAll fit.parameters (targets.zip values)).1) ⊆
            Parameters.thawed (Parameters.freezeAt targets fit.parameters) :=
        Parameters.thawed_freezeAt_writeAll fun w hw => (List.of_mem_zip hw).1
      rw [← calcStat_projected fit (fit.scanMethod fast) (targets.zip values) targets] at hstat
      generalize hprojected :
        fit.projected (fit.scanMethod fast) (targets.zip values) targets = other at hy hstat
      have hfit' : other.Coherent := hprojected ▸ hfit
      have hinside' : other.Inside := hprojected ▸ fun p hp =>
        hinside p (Parameters.thawed_freezeAt_subset targets fit.parameters (hthawed hp))
      have hplace' : other.StartsInPlace := hprojected ▸ hplace.of_subset rfl hthawed
      exact stat_le_of_minimise hfit' hinside' hplace' hstat hy

end CurveFit

namespace Plan

/-- Targets that are found under the same names are the same. -/
theorem targets_eq {names : Vector String n} {targets targets' : Vector Nat n}
    (h : names.toList.map (Fit.index? fit) = targets.toList.map some)
    (h' : names.toList.map (Fit.index? fit) = targets'.toList.map some) : targets' = targets :=
  Vector.toList_inj.mp ((List.map_inj_right fun _ _ => Option.some.inj).mp (h'.symm.trans h))

/-- The grid does not go by the mode. -/
theorem grid_eq {names : Vector String n} {mode mode' : ScanMode} {context context' : String}
    {req : GridRequest α n} {fast fast' : Bool} {plan plan' : Plan α n}
    (h : (prepare fit names mode context req fast).2 = .ok plan)
    (h' : (prepare fit names mode' context' req fast').2 = .ok plan') :
    plan'.grid = plan.grid := by
  obtain ⟨hcheck, hbuild, -⟩ :=
    prepare_eq_ok (Prod.ext (prepare_fst fit names mode context req fast) h)
  obtain ⟨hcheck', hbuild', -⟩ :=
    prepare_eq_ok (Prod.ext (prepare_fst fit names mode' context' req fast') h')
  have htargets := targets_eq (found_of_check hcheck).1 (found_of_check hcheck').1
  rw [htargets, hbuild] at hbuild'
  exact (Except.ok.inj (Prod.ext_iff.mp hbuild').2).symm

variable [Scalar.Ordered α] [Scalar.Congruent α]

/-- Runs in the two modes, of plans that are made for the same request. -/
theorem execute_le {plan plan' : Plan α n} {names : Vector String n} {context context' : String}
    {req : GridRequest α n} {fast : Bool} {workers workers' : Option Nat}
    {refusal refusal' : PoolRefusal} {ys ss : List α}
    (hfit : fit.Coherent) (hinside : fit.Inside) (hnames : names.toList.Nodup)
    (hplan : (prepare fit names .projection context req fast).2 = .ok plan)
    (hplan' : (prepare fit names .uncertainty context' req fast).2 = .ok plan')
    (hys : (plan.execute fit workers refusal).2 = .ok ys)
    (hss : (plan'.execute fit workers' refusal').2 = .ok ss) :
    plan'.grid = plan.grid ∧
      (fit.OthersStartInPlace plan.targets.toList → List.Forall₂ (· ≤ ·) ys ss) ∧
      (fit.othersThawed plan.targets.toList = false → ys = ss) := by
  have hgrid := grid_eq hplan hplan'
  have hsound := prepare_sound hplan
  have hsound' := prepare_sound hplan'
  have htargets := targets_eq hsound.found hsound'.found
  obtain ⟨hlength, hvalue⟩ := valueByHand_of_execute hfit hsound hnames hys
  obtain ⟨hlength', hvalue'⟩ := valueByHand_of_execute hfit hsound' hnames hss
  rw [hgrid] at hlength' hvalue'
  have hlengths : ys.length = ss.length := hlength.trans hlength'.symm
  -- Both lists hold the values by hand at the points of the one grid.
  have hpoint : ∀ k (hk : k < ys.length) (hk' : k < ss.length), ∃ values,
      fit.byHand .projection fast plan.targets.toList values = .ok ys[k] ∧
      fit.byHand .uncertainty fast plan.targets.toList values = .ok ss[k] := by
    intro k hk hk'
    obtain ⟨y, hyk, hy⟩ := hvalue k (hlength ▸ hk)
    obtain ⟨s, hsk, hs⟩ := hvalue' k (hlength ▸ hk)
    rw [List.getElem?_eq_getElem hk, Option.some.injEq] at hyk
    rw [List.getElem?_eq_getElem hk', Option.some.injEq] at hsk
    rw [valueByHand, hsound.mode_eq] at hy
    rw [valueByHand, hsound'.mode_eq, htargets, hgrid] at hs
    rw [hyk, hsk]
    exact ⟨_, hy, hs⟩
  refine ⟨hgrid, fun hplace => ?_, fun hothers => ?_⟩
  · refine List.forall₂_iff_get.mpr ⟨hlengths, fun k hk hk' => ?_⟩
    obtain ⟨values, hy, hs⟩ := hpoint k hk hk'
    exact CurveFit.byHand_le hfit hinside hplace hy hs
  · refine List.ext_getElem hlengths fun k hk hk' => ?_
    obtain ⟨values, hy, hs⟩ := hpoint k hk hk'
    rw [CurveFit.byHand_projection_eq values hothers] at hy
    exact Except.ok.inj (hy.symm.trans hs)

end Plan

section Results

variable {refusal refusal' : PoolRefusal}

/-- An interval reports a run of the plan that its validation has made. -/
theorem IntervalScan.compute_eq_ok {mode : ScanMode} {options : IntervalOptions α} {name : String}
    {r : IntervalResult α} (h : (compute mode options fit name refusal).2 = .ok r) :
    ∃ plan ys, validate mode options fit name = .ok plan ∧
      (plan.execute fit options.workers refusal).2 = .ok ys ∧ r = report options plan ys := by
  rw [compute_eq] at h
  cases hvalidate : validate mode options fit name with
  | error e =>
      rw [hvalidate] at h
      cases h
  | ok plan =>
      rw [hvalidate] at h
      obtain ⟨ys, hys, rfl⟩ := exists_of_map_eq_ok h
      exact ⟨plan, ys, rfl, hys, rfl⟩

theorem RegionScan.compute_eq_ok {mode : ScanMode} {options : RegionOptions α}
    {names : Vector String 2} {r : RegionResult α}
    (h : (compute mode options fit names refusal).2 = .ok r) :
    ∃ plan levels ys, validate mode options fit names = .ok (plan, levels) ∧
      (plan.execute fit options.workers refusal).2 = .ok ys ∧
        r = report options plan levels ys := by
  rw [compute_eq] at h
  cases hvalidate : validate mode options fit names with
  | error e =>
      rw [hvalidate] at h
      cases h
  | ok found =>
      obtain ⟨plan, levels⟩ := found
      rw [hvalidate] at h
      obtain ⟨ys, hys, rfl⟩ := exists_of_map_eq_ok h
      exact ⟨plan, levels, ys, rfl, hys, rfl⟩

variable [Scalar.Ordered α] [Scalar.Congruent α]

theorem IntervalScan.compute_le (hfit : fit.Coherent) (hinside : fit.Inside)
    {options : IntervalOptions α} {name : String}
    {proj unc : IntervalResult α}
    (hproj : (compute .projection options fit name refusal).2 = .ok proj)
    (hunc : (compute .uncertainty options fit name refusal').2 = .ok unc) :
    ∃ i, Fit.index? fit name = some i ∧ proj.x = unc.x ∧
      (fit.OthersStartInPlace [i] → List.Forall₂ (· ≤ ·) proj.y unc.y) ∧
      (fit.othersThawed [i] = false → proj.y = unc.y) := by
  obtain ⟨plan, ys, hplan, hys, rfl⟩ := compute_eq_ok hproj
  obtain ⟨plan', ss, hplan', hss, rfl⟩ := compute_eq_ok hunc
  obtain ⟨req, hreq, hprepare⟩ := prepare_of_validate hplan
  obtain ⟨req', hreq', hprepare'⟩ := prepare_of_validate hplan'
  obtain rfl : req = req' := Except.ok.inj (hreq.symm.trans hreq')
  obtain ⟨hgrid, hle, heq⟩ :=
    Plan.execute_le hfit hinside (by simp) hprepare hprepare' hys hss
  have hfound := (validate_sound hplan).found
  rw [toList_eq_one plan.targets] at hfound hle heq
  refine ⟨plan.targets[0], by simpa using hfound, ?_, hle, heq⟩
  simp only [report, hgrid]

theorem RegionScan.compute_le (hfit : fit.Coherent) (hinside : fit.Inside)
    {options : RegionOptions α} {name0 name1 : String} (hnames : name0 ≠ name1)
    {proj unc : RegionResult α}
    (hproj : (compute .projection options fit #v[name0, name1] refusal).2 = .ok proj)
    (hunc : (compute .uncertainty options fit #v[name0, name1] refusal').2 = .ok unc) :
    ∃ i j, Fit.index? fit name0 = some i ∧ Fit.index? fit name1 = some j ∧
      proj.x0 = unc.x0 ∧ proj.x1 = unc.x1 ∧
      (fit.OthersStartInPlace [i, j] → List.Forall₂ (· ≤ ·) proj.y unc.y) ∧
      (fit.othersThawed [i, j] = false → proj.y = unc.y) := by
  obtain ⟨plan, levels, ys, hplan, hys, rfl⟩ := compute_eq_ok hproj
  obtain ⟨plan', levels', ss, hplan', hss, rfl⟩ := compute_eq_ok hunc
  obtain ⟨req, hreq, hprepare⟩ := prepare_of_validate hplan
  obtain ⟨req', hreq', hprepare'⟩ := prepare_of_validate hplan'
  obtain rfl : req = req' := Except.ok.inj (hreq.symm.trans hreq')
  have hnodup : #v[name0, name1].toList.Nodup := by simpa using hnames
  obtain ⟨hgrid, hle, heq⟩ :=
    Plan.execute_le hfit hinside hnodup hprepare hprepare' hys hss
  have hfound := (validate_sound hplan).found
  rw [toList_eq_two plan.targets] at hfound hle heq
  simp only [Vector.toList_mk, List.map_cons, List.map_nil, List.cons.injEq, and_true] at hfound
  refine ⟨plan.targets[0], plan.targets[1], hfound.1, hfound.2, ?_, ?_, hle, heq⟩
  · simp only [report, hgrid]
  · simp only [report, hgrid]

end Results

/-- For one fit and the same options, a projection and an uncertainty scan over one parameter, or
over two different ones, have the same coordinates if they both succeed, and the projection lies
nowhere above; that no other value is moved onto the other zero matters to this alone. With no other
parameter thawed the two are equal. -/
theorem projection_le_uncertainty [Scalar.Ordered α] [Scalar.Congruent α] {fit : CurveFit α}
    (hfit : fit.Reachable) (hinside : fit.Inside) (refusal refusal' : PoolRefusal) :
    (∀ (options : IntervalOptions α) (name : String) (proj unc : IntervalResult α),
      (IntervalScan.compute .projection options fit name refusal).2 = .ok proj →
      (IntervalScan.compute .uncertainty options fit name refusal').2 = .ok unc →
      ∃ i, Fit.index? fit name = some i ∧ proj.x = unc.x ∧
        (fit.OthersStartInPlace [i] → List.Forall₂ (· ≤ ·) proj.y unc.y) ∧
        (fit.othersThawed [i] = false → proj.y = unc.y)) ∧
    ∀ (options : RegionOptions α) (name0 name1 : String) (proj unc : RegionResult α),
      name0 ≠ name1 →
      (RegionScan.compute .projection options fit #v[name0, name1] refusal).2 = .ok proj →
      (RegionScan.compute .uncertainty options fit #v[name0, name1] refusal').2 = .ok unc →
      ∃ i j, Fit.index? fit name0 = some i ∧ Fit.index? fit name1 = some j ∧
        proj.x0 = unc.x0 ∧ proj.x1 = unc.x1 ∧
        (fit.OthersStartInPlace [i, j] → List.Forall₂ (· ≤ ·) proj.y unc.y) ∧
        (fit.othersThawed [i, j] = false → proj.y = unc.y) :=
  ⟨fun _ _ _ _ => IntervalScan.compute_le hfit.coherent hinside,
    fun _ _ _ _ _ hnames => RegionScan.compute_le hfit.coherent hinside hnames⟩

def looseSweep : IntervalOptions Float where
  lower := some (.single 0)
  upper := some (.single 2)
  count := .single 2
  factor := 1

def looseMesh : RegionOptions Float where
  lower := some (.pair 0 0)
  upper := some (.pair 2 2)
  count := .pair 2 2
  factor := 1
  sigma := none
  levels := some [1]

/-- The line through a single point: over one of its parameters the other makes up for the
difference, and over both there is nothing left to fit. -/
theorem looseLine_projection_le :
    looseLine.Reachable ∧ looseLine.Inside ∧ looseLine.OthersStartInPlace [0] ∧
      (∃ proj unc,
        (IntervalScan.compute .projection looseSweep looseLine "c0").2 = .ok proj ∧
        (IntervalScan.compute .uncertainty looseSweep looseLine "c0").2 = .ok unc ∧
        proj.y = [0, 0] ∧ unc.y = [1, 9] ∧ proj.x = unc.x ∧
        List.Forall₂ (· ≤ ·) proj.y unc.y) ∧
      ∃ proj unc,
        (RegionScan.compute .projection looseMesh looseLine #v["c0", "c1"]).2 = .ok proj ∧
        (RegionScan.compute .uncertainty looseMesh looseLine #v["c0", "c1"]).2 = .ok unc ∧
        proj.y = unc.y := by
  have hfit : looseLine.Reachable := .made rfl
  have hinside : looseLine.Inside := by decide +kernel
  have hplace : looseLine.StartsInPlace := .inr (by decide +kernel)
  have hcompare := projection_le_uncertainty hfit hinside .never .never
  refine ⟨hfit, hinside, hplace.others [0], ?_, ?_⟩
  · obtain ⟨proj, hproj, hlow⟩ := exists_of_toOption_any
      (x := (IntervalScan.compute .projection looseSweep looseLine "c0").2)
      (p := fun r => decide (r.y = [0, 0])) (by decide +kernel)
    obtain ⟨unc, hunc, hhigh⟩ := exists_of_toOption_any
      (x := (IntervalScan.compute .uncertainty looseSweep looseLine "c0").2)
      (p := fun r => decide (r.y = [1, 9])) (by decide +kernel)
    obtain ⟨i, hi, hx, hle, -⟩ := hcompare.1 looseSweep "c0" proj unc hproj hunc
    exact ⟨proj, unc, hproj, hunc, of_decide_eq_true hlow, of_decide_eq_true hhigh, hx,
      hle (hplace.others [i])⟩
  · obtain ⟨proj, hproj⟩ := exists_of_isOk
      (x := (RegionScan.compute .projection looseMesh looseLine #v["c0", "c1"]).2)
      (by decide +kernel)
    obtain ⟨unc, hunc⟩ := exists_of_isOk
      (x := (RegionScan.compute .uncertainty looseMesh looseLine #v["c0", "c1"]).2)
      (by decide +kernel)
    obtain ⟨i, j, hi, hj, -, -, -, heq⟩ :=
      hcompare.2 looseMesh "c0" "c1" proj unc (by decide) hproj hunc
    obtain rfl : 0 = i := Option.some.inj hi
    obtain rfl : 1 = j := Option.some.inj hj
    exact ⟨proj, unc, hproj, hunc, heq rfl⟩

/-- Next to the scanned parameter stands a negative zero at a lower limit of zero, on a curve that
tells the two apart. The uncertainty keeps it. Each search of the projection starts from zero and
stays in the higher statistic there. -/
theorem signed_projection_above :
    let fit := CurveFit.signed [⟨"c0", 1, 0, 4, false⟩, ⟨"c1", -0, 0, 4, false⟩]
    fit.Reachable ∧ fit.Inside ∧
      ∃ proj unc,
        (IntervalScan.compute .projection looseSweep fit "c0").2 = .ok proj ∧
        (IntervalScan.compute .uncertainty looseSweep fit "c0").2 = .ok unc ∧
        proj.y = [25, 25] ∧ unc.y = [0, 0] ∧ ¬ List.Forall₂ (· ≤ ·) proj.y unc.y := by
  intro fit
  have hinside : fit.Inside := by decide +kernel
  obtain ⟨proj, hproj, hhigh⟩ := exists_of_toOption_any
    (x := (IntervalScan.compute .projection looseSweep fit "c0").2)
    (p := fun r => decide (r.y = [25, 25])) (by decide +kernel)
  obtain ⟨unc, hunc, hlow⟩ := exists_of_toOption_any
    (x := (IntervalScan.compute .uncertainty looseSweep fit "c0").2)
    (p := fun r => decide (r.y = [0, 0])) (by decide +kernel)
  refine ⟨.made rfl, hinside, proj, unc, hproj, hunc, of_decide_eq_true hhigh,
    of_decide_eq_true hlow, ?_⟩
  rw [of_decide_eq_true hhigh, of_decide_eq_true hlow]
  intro h
  exact absurd (List.forall₂_cons.mp h).1 (by decide +kernel)

end ParameterScan
