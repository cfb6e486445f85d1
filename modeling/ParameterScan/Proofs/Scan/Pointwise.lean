import ParameterScan.Proofs.Fit.Reachable
import ParameterScan.Proofs.Grid
import ParameterScan.Proofs.Scan.Targets
import ParameterScan.Scalar.Double

/-!
# A scan is what one would do by hand

At each point of its grid a scan has the value that a caller gets from a copy of the fit: assign the
targets, and read the statistic or, in a projection with something else to fit, freeze the targets,
put in the optimizer that is chosen for the statistic and fit. The scan does it another way. It
freezes first and writes afterwards, reads the statistic of a fit with other flags, starts the model
up once and keeps the errors of the points, counts the thawed parameters in advance, shares the
points out among workers, and puts the coordinates into its result without looking at the fit.

That a value is a number or was reached by a good fit is not asked. The values agree because the
same operations are done on the same numbers, in any arithmetic.
-/
namespace ParameterScan

section Counting

variable {α : Type}

/-- Whether a parameter other than those at the given places is thawed. -/
def CurveFit.othersThawed (fit : CurveFit α) (targets : List Nat) : Bool :=
  fit.parameters.zipIdx.any fun (p, j) => !p.frozen && !targets.contains j

theorem othersThawed_iff {fit : CurveFit α} {targets : List Nat} :
    fit.othersThawed targets = true ↔
      ∃ j ∈ Parameters.thawedIndices fit.parameters, j ∉ targets := by
  simp only [CurveFit.othersThawed, List.any_eq_true, Prod.exists, Parameters.mem_thawedIndices,
    List.mk_mem_zipIdx_iff_getElem?, Bool.and_eq_true, Bool.not_eq_true', List.contains_eq_mem,
    decide_eq_false_iff_not]
  grind

/-- Distinct thawed targets are fewer than the thawed parameters when there is another one. -/
theorem othersThawed_iff_lt {fit : CurveFit α} {targets : List Nat} (hnodup : targets.Nodup)
    (hthawed : targets ⊆ Parameters.thawedIndices fit.parameters) :
    fit.othersThawed targets = true ↔
      targets.length < Parameters.thawedCount fit.parameters := by
  rw [othersThawed_iff, Parameters.thawedCount_eq_add hthawed, hnodup.dedup,
    Nat.lt_add_right_iff_pos, List.length_pos_iff_exists_mem]
  simp only [Parameters.mem_otherIndices]

/-- Only flags count. -/
theorem othersThawed_of_frozen {fit other : CurveFit α} (targets : List Nat)
    (h : other.parameters.map Parameter.frozen = fit.parameters.map Parameter.frozen) :
    other.othersThawed targets = fit.othersThawed targets := by
  have hflags : ∀ ps : List (Parameter α),
      (ps.zipIdx.any fun (p, j) => !p.frozen && !targets.contains j) =
        (ps.map Parameter.frozen).zipIdx.any fun (b, j) => !b && !targets.contains j := by
    intro ps
    rw [← List.map_zipIdx, List.any_map]
    rfl
  unfold CurveFit.othersThawed
  rw [hflags, hflags, h]

end Counting

variable {α : Type} [Scalar α] {n : Nat}

/-- The optimizer that suits the statistic if a fast scan would exchange it, and the own one
otherwise. -/
def CurveFit.scanMethod (fit : CurveFit α) (fast : Bool) : Optimizer :=
  (chooseMethod fit.method fit.stat fast "").1.getD fit.method

/-- The statistic at one point without a scan. The targets are given by their places. -/
def CurveFit.byHand (fit : CurveFit α) (mode : ScanMode) (fast : Bool) (targets : List Nat)
    (values : List α) : Except (FitError α) α :=
  match Evaluator.assignAll fit (targets.zip values) with
  | (_, .error e) => .error e
  | (fit, .ok ()) =>
      if mode = .projection ∧ fit.othersThawed targets then
        let frozen := targets.foldl (fun fit i => Fit.modifyParameter fit i Parameter.freeze) fit
        ((Fit.withMethod frozen (fit.scanMethod fast)).minimise false).2.map FitResult.stat
      else fit.calcStat

section Points

theorem assignAll_eq (fit : CurveFit α) (writes : List (Nat × α)) :
    Evaluator.assignAll fit writes =
      (fit.withParameters (Parameters.writeAll fit.parameters writes).1,
        (Parameters.writeAll fit.parameters writes).2) := by
  induction writes generalizing fit with
  | nil => rfl
  | cons write rest ih =>
      obtain ⟨i, x⟩ := write
      cases hassign : (fit.parameters.getD i default).assign x with
      | error e =>
          have h : Fit.assign fit i x = (fit, .error e) := by
            simp only [Fit.assign, Fit.parameter, Fit.parameters, hassign]
          simp only [Evaluator.assignAll, h, Parameters.writeAll, hassign]
          rfl
      | ok p =>
          have h : Fit.assign fit i x =
              (fit.withParameters (fit.parameters.modify i fun _ => p), .ok ()) := by
            simp only [Fit.assign, Fit.parameter, Fit.parameters, hassign]
            rfl
          simp only [Evaluator.assignAll, h, Parameters.writeAll, hassign]
          exact ih _

/-- The number of a minimisation, whatever becomes of the fit. -/
theorem minimise_stat (fit : CurveFit α) (reuse : Bool) :
    (fit.minimise reuse).2.map FitResult.stat =
      match (fit.started reuse).minimum with
      | .error e => .error e
      | .ok m => (Parameters.assignThawed fit.parameters m.point).2.map fun _ => m.value := by
  rw [CurveFit.minimise_eq]
  cases (fit.started reuse).minimum with
  | error e => rfl
  | ok m =>
      simp only
      cases (Parameters.assignThawed fit.parameters m.point).2 <;> rfl

variable {fit : CurveFit α} {method : Option Optimizer} {e : Evaluator α n} {p : Vector α n}

/-- The targets with their parameter values at a point. -/
def Evaluator.writes (e : Evaluator α n) (p : Vector α n) : List (Nat × α) :=
  e.targets.toList.zip (e.grid.toLinear p).toList

theorem eval_snd (e : Evaluator α n) (held : CurveFit α) (p : Vector α n) :
    (e.eval held p).2 =
      match (Parameters.writeAll held.parameters (e.writes p)).2 with
      | .error error => .error error
      | .ok () =>
          (e.read
            (held.withParameters (Parameters.writeAll held.parameters (e.writes p)).1)).2 := by
  have hwrites : e.targets.toList.zip (e.grid.toLinear p).toList = e.writes p := rfl
  unfold Evaluator.eval
  rw [hwrites, assignAll_eq]
  cases (Parameters.writeAll held.parameters (e.writes p)).2 <;> rfl

/-- The value by hand, with the writes done at once. -/
theorem byHand_eq (fit : CurveFit α) (mode : ScanMode) (fast : Bool) (targets : List Nat)
    (values : List α) :
    fit.byHand mode fast targets values =
      match (Parameters.writeAll fit.parameters (targets.zip values)).2 with
      | .error error => .error error
      | .ok () =>
          let moved := fit.withParameters
            (Parameters.writeAll fit.parameters (targets.zip values)).1
          if mode = .projection ∧ fit.othersThawed targets then
            ((Fit.withMethod (Held.freezeFor .projection targets moved)
              (fit.scanMethod fast)).minimise false).2.map FitResult.stat
          else moved.calcStat := by
  have hothers :
      (fit.withParameters (Parameters.writeAll fit.parameters (targets.zip values)).1).othersThawed
        targets = fit.othersThawed targets :=
    othersThawed_of_frozen _ (Parameters.writeAll_map_frozen fit.parameters (targets.zip values))
  unfold CurveFit.byHand
  rw [assignAll_eq]
  cases (Parameters.writeAll fit.parameters (targets.zip values)).2 with
  | error error => rfl
  | ok _ =>
      simp only
      rw [← hothers]
      rfl

/-- Without fitting again, the flags of a held fit and the errors that it keeps do not show. -/
theorem eval_reads (hfit : fit.Coherent) (mode : ScanMode) (hrefits : e.refits = false) :
    (e.eval (Held.acquire fit mode e.targets.toList method).fit p).2 =
      match (Parameters.writeAll fit.parameters (e.writes p)).2 with
      | .error error => .error error
      | .ok () =>
          (fit.withParameters (Parameters.writeAll fit.parameters (e.writes p)).1).calcStat := by
  obtain ⟨ps, hfrozen, hthaw⟩ := Held.exists_freezeFor mode e.targets.toList
    (Fit.withMethod fit (method.getD (Fit.method fit)))
  have hps : ps.map Parameter.thaw = fit.parameters.map Parameter.thaw := hthaw
  have hheld : (Held.acquire fit mode e.targets.toList method).fit =
      (CurveFit.withParameters (Fit.withMethod fit (method.getD fit.method)) ps).startup := by
    unfold Held.acquire
    rw [hfrozen]
    rfl
  have hparameters : ((Fit.withMethod fit (method.getD fit.method)).withParameters
      ps).startup.parameters = ps := rfl
  rw [hheld, eval_snd, hparameters, Parameters.writeAll_snd_of_thaw hps]
  cases (Parameters.writeAll fit.parameters (e.writes p)).2 with
  | error error => rfl
  | ok _ =>
      simp only [Evaluator.read, hrefits, Bool.false_eq_true, if_false]
      refine CurveFit.calcStat_congr rfl rfl rfl ?_ ?_
      · exact (CurveFit.statErrors_startup _).trans hfit.statErrors.symm
      · exact map_value_of_thaw (Parameters.writeAll_thaw_of_thaw hps (e.writes p))

/-- Fitted again, a held fit is one that was written to first, frozen and started up. -/
theorem eval_refits (hrefits : e.refits = true) :
    (e.eval (Held.acquire fit .projection e.targets.toList method).fit p).2 =
      match (Parameters.writeAll fit.parameters (e.writes p)).2 with
      | .error error => .error error
      | .ok () =>
          ((Fit.withMethod (Held.freezeFor .projection e.targets.toList
            (fit.withParameters (Parameters.writeAll fit.parameters (e.writes p)).1))
            (method.getD fit.method)).minimise false).2.map FitResult.stat := by
  have hheld : (Held.acquire fit .projection e.targets.toList method).fit =
      (CurveFit.withParameters (Fit.withMethod fit (method.getD fit.method))
        (Parameters.freezeAt e.targets.toList fit.parameters)).startup := by
    unfold Held.acquire
    rw [Held.freezeFor_projection]
    rfl
  have hparameters : ((Fit.withMethod fit (method.getD fit.method)).withParameters
      (Parameters.freezeAt e.targets.toList fit.parameters)).startup.parameters =
        Parameters.freezeAt e.targets.toList fit.parameters := rfl
  rw [hheld, eval_snd, hparameters,
    Parameters.writeAll_snd_of_thaw (map_thaw_freezeAt e.targets.toList fit.parameters),
    Parameters.writeAll_freezeAt, Held.freezeFor_projection]
  cases (Parameters.writeAll fit.parameters (e.writes p)).2 with
  | error error => rfl
  | ok _ =>
      simp only [Evaluator.read, hrefits, if_true]
      refine (minimise_stat _ true).trans (Eq.trans ?_ (minimise_stat _ false).symm)
      rfl

/-- What an evaluator finds on a held fit is what comes out by hand. -/
theorem eval_acquire (hfit : fit.Coherent) {mode : ScanMode} {fast : Bool}
    (hmethod : mode = .projection → method = (chooseMethod fit.method fit.stat fast "").1)
    (hrefits : e.refits = true ↔ mode = .projection ∧ fit.othersThawed e.targets.toList) :
    (e.eval (Held.acquire fit mode e.targets.toList method).fit p).2 =
      fit.byHand mode fast e.targets.toList (e.grid.toLinear p).toList := by
  have hwrites : e.targets.toList.zip (e.grid.toLinear p).toList = e.writes p := rfl
  rw [byHand_eq, hwrites]
  cases hr : e.refits with
  | false =>
      have hno : ¬(mode = .projection ∧ fit.othersThawed e.targets.toList) := by
        rw [← hrefits, hr]
        exact Bool.false_ne_true
      rw [eval_reads hfit mode hr]
      simp only [if_neg hno]
  | true =>
      obtain ⟨rfl, hothers⟩ := hrefits.mp hr
      rw [eval_refits hr, hmethod rfl]
      simp only [hothers, and_self, if_true]
      rfl

end Points

namespace Plan

/-- The value by hand at a point of the grid, by its number. -/
def valueByHand (plan : Plan α n) (fit : CurveFit α) (fast : Bool) (k : Nat) :
    Except (FitError α) α :=
  fit.byHand plan.mode fast plan.targets.toList (plan.grid.toLinear (plan.grid.point k)).toList

/-- A run of a plan has the values that come out by hand, point by point, as soon as there are
threads to run it. -/
theorem execute_eq_ok_iff {plan : Plan α n} {fit : CurveFit α} {names : Vector String n}
    {mode : ScanMode} {fast : Bool} (hfit : fit.Coherent)
    (hplan : plan.Sound fit names mode fast) (hnames : names.toList.Nodup)
    (workers : Option Nat) (refusal : PoolRefusal) (ys : List α) :
    (plan.execute fit workers refusal).2 = .ok ys ↔
      refusal.reason workers = none ∧
        (List.range plan.grid.meshSize).map (plan.valueByHand fit fast) = ys.map .ok := by
  rw [execute_snd]
  cases hr : refusal.reason workers with
  | some reason => simp
  | none =>
      generalize he : Evaluator.make plan.grid plan.targets plan.mode (Fit.thawedCount fit) = e
      have hgrid : e.grid = plan.grid := by rw [← he]; rfl
      have htargets : e.targets = plan.targets := by rw [← he]; rfl
      have hothers := othersThawed_iff_lt (hplan.nodup hnames) hplan.thawed
      have hrefits : e.refits = true ↔
          plan.mode = .projection ∧ fit.othersThawed e.targets.toList := by
        rw [htargets, hothers, ← he, Vector.length_toList]
        simp only [Evaluator.make, Bool.and_eq_true, decide_eq_true_eq]
        rfl
      have hmethod : plan.mode = .projection →
          plan.method = (chooseMethod fit.method fit.stat fast "").1 :=
        fun h => hplan.method_eq (hplan.mode_eq ▸ h)
      have hfresh : ∀ p, Pool.fresh e.eval
          (Held.acquire fit plan.mode plan.targets.toList plan.method).fit p =
            fit.byHand plan.mode fast plan.targets.toList (plan.grid.toLinear p).toList := by
        intro p
        have heval := eval_acquire (p := p) hfit hmethod hrefits
        rw [htargets, hgrid] at heval
        exact heval
      have hvalues : plan.grid.mesh.map (Pool.fresh e.eval
          (Held.acquire fit plan.mode plan.targets.toList plan.method).fit) =
            (List.range plan.grid.meshSize).map (plan.valueByHand fit fast) := by
        rw [Grid.mesh, List.map_map]
        exact List.map_congr_left fun k _ => hfresh _
      rw [← hvalues, ← mapM_eq_ok_iff]
      simp only [Evaluator.evalAll, Pool.parallelMap_eq_mapM, true_and]
      cases plan.grid.mesh.mapM (Pool.fresh e.eval
          (Held.acquire fit plan.mode plan.targets.toList plan.method).fit) with
      | error error => simp [Except.mapError]
      | ok vs => simp [Except.mapError]

/-- The values of a run, one by one. -/
theorem valueByHand_of_execute {plan : Plan α n} {fit : CurveFit α} {names : Vector String n}
    {mode : ScanMode} {fast : Bool} {workers : Option Nat} {refusal : PoolRefusal} {ys : List α}
    (hfit : fit.Coherent) (hplan : plan.Sound fit names mode fast) (hnames : names.toList.Nodup)
    (h : (plan.execute fit workers refusal).2 = .ok ys) :
    ys.length = plan.grid.meshSize ∧
      ∀ k < plan.grid.meshSize, ∃ y, ys[k]? = some y ∧ plan.valueByHand fit fast k = .ok y := by
  obtain ⟨-, hvalues⟩ := (execute_eq_ok_iff hfit hplan hnames workers refusal ys).mp h
  have hlength : ys.length = plan.grid.meshSize := by
    simpa using (congrArg List.length hvalues).symm
  refine ⟨hlength, fun k hk => ?_⟩
  have hk' : k < ys.length := by omega
  refine ⟨ys[k], List.getElem?_eq_getElem hk', ?_⟩
  have hget := congrArg (·[k]?) hvalues
  simpa [hk, hk'] using hget

end Plan

/-- A validation that passes has made a plan. -/
theorem IntervalScan.prepare_of_validate {mode : ScanMode} {options : IntervalOptions α}
    {fit : CurveFit α} {name : String} {plan : Plan α 1}
    (h : validate mode options fit name = .ok plan) :
    ∃ req, options.gridRequest = .ok req ∧
      (Plan.prepare fit #v[name] mode (context mode) req options.fast).2 = .ok plan :=
  exists_of_bind_eq_ok h

theorem RegionScan.prepare_of_validate {mode : ScanMode} {options : RegionOptions α}
    {fit : CurveFit α} {names : Vector String 2} {plan : Plan α 2} {levels : List α}
    (h : validate mode options fit names = .ok (plan, levels)) :
    ∃ req, options.gridRequest = .ok req ∧
      (Plan.prepare fit names mode (context mode) req options.fast).2 = .ok plan := by
  obtain ⟨req, hreq, h⟩ := exists_of_bind_eq_ok h
  obtain ⟨found, hplan, h⟩ := exists_of_bind_eq_ok h
  obtain ⟨_, _, h⟩ := exists_of_bind_eq_ok h
  obtain ⟨rfl, -⟩ := Prod.mk.inj (Except.ok.inj h)
  exact ⟨req, hreq, hplan⟩

theorem IntervalScan.validate_sound {mode : ScanMode} {options : IntervalOptions α}
    {fit : CurveFit α} {name : String} {plan : Plan α 1}
    (h : validate mode options fit name = .ok plan) :
    plan.Sound fit #v[name] mode options.fast :=
  let ⟨_, _, hplan⟩ := prepare_of_validate h
  Plan.prepare_sound hplan

theorem RegionScan.validate_sound {mode : ScanMode} {options : RegionOptions α}
    {fit : CurveFit α} {names : Vector String 2} {plan : Plan α 2} {levels : List α}
    (h : validate mode options fit names = .ok (plan, levels)) :
    plan.Sound fit names mode options.fast :=
  let ⟨_, _, hplan⟩ := prepare_of_validate h
  Plan.prepare_sound hplan

section Results

variable {fit : CurveFit α} {mode : ScanMode} {refusal : PoolRefusal}

end Results

end ParameterScan
