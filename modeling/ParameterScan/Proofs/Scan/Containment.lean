import ParameterScan.Proofs.Fit.Interface
import ParameterScan.Proofs.Fit.Reachable
import ParameterScan.Proofs.Grid
import ParameterScan.Proofs.Limits
import ParameterScan.Proofs.Scan.Targets
import ParameterScan.Proofs.Spacing

/-!
# Which values a grid assigns

The range of an axis is checked twice, as it is given and as it is clipped to the limits of its
parameter, so a grid that is built has ranges inside the limits. The values on an axis are not
checked again. As long as they lie in the range of their axis, no value is refused when a scan
assigns it; whether they do is a question of rounding, which is settled for each layout. A grid by
count over a range that overflows is accepted and has a `NaN` among its values.
-/
namespace ParameterScan

section Writes

variable {α : Type} [Scalar α]

/-- Values that the limits admit are written one after the other. -/
theorem Parameters.writeAll_of_admits {ps : List (Parameter α)} {writes : List (Nat × α)}
    (h : ∀ w ∈ writes, (ps.getD w.1 default).Admits w.2) : (writeAll ps writes).2 = .ok () := by
  induction writes generalizing ps with
  | nil => rfl
  | cons write rest ih =>
      obtain ⟨i, x⟩ := write
      have hone : (ps.getD i default).assign x = .ok { ps.getD i default with value := x } :=
        if_pos (h (i, x) List.mem_cons_self)
      rw [writeAll_cons_ok hone]
      have hlimits := limits_modify_value ps i x
      exact ih fun w hw => (admits_getD_iff hlimits w.1 w.2).mpr (h w (List.mem_cons_of_mem _ hw))

variable {φ : Type} [Fit φ α] [Fit.Lawful φ]

theorem assignAll_snd (fit : φ) (writes : List (Nat × α)) :
    (Evaluator.assignAll fit writes).2 =
      (Parameters.writeAll (Fit.parameters fit) writes).2 := by
  induction writes generalizing fit with
  | nil => rfl
  | cons write rest ih =>
      obtain ⟨i, x⟩ := write
      cases hassign : ((Fit.parameters fit).getD i default).assign x with
      | error e =>
          simp only [Evaluator.assignAll, Fit.assign, Fit.parameter, Parameters.writeAll, hassign]
      | ok p =>
          simp only [Evaluator.assignAll, Fit.assign, Fit.parameter, Parameters.writeAll, hassign,
            ih, Fit.modifyParameter, Fit.Lawful.parameters_withParameters]

omit [Scalar α] in
/-- A fit that is held has its parameters with other flags. -/
theorem Held.map_thaw_acquire (fit : φ) (mode : ScanMode) (targets : List Nat)
    (method : Option Optimizer) :
    (Fit.parameters (acquire fit mode targets method : Held φ α).fit).map Parameter.thaw =
      (Fit.parameters fit).map Parameter.thaw := by
  have hfrozen : ∀ other : φ, (Fit.parameters (freezeFor mode targets other)).map Parameter.thaw =
      (Fit.parameters other).map Parameter.thaw := by
    intro other
    cases mode with
    | uncertainty => simp [freezeFor, Function.comp_def, Parameter.thaw, Parameter.freeze]
    | projection =>
        unfold freezeFor
        induction targets generalizing other with
        | nil => rfl
        | cons i rest ih =>
            have hone : Fit.parameters (Fit.modifyParameter other i Parameter.freeze) =
                (Fit.parameters other).modify i Parameter.freeze :=
              Fit.Lawful.parameters_withParameters _ _
            refine (ih (Fit.modifyParameter other i Parameter.freeze)).trans ?_
            rw [hone, map_thaw_modify_freeze]
  simp [acquire, hfrozen]

end Writes

namespace GridRequest

variable {α : Type} [Scalar α] {n : Nat}

theorem forM_eq_ok {ε τ : Type} {f : τ → Except ε Unit} {xs : List τ}
    (h : xs.forM f = .ok ()) : ∀ x ∈ xs, f x = .ok () := by
  induction xs with
  | nil => simp
  | cons y ys ih =>
      obtain ⟨_, hy, hys⟩ := exists_of_bind_eq_ok h
      exact List.forall_mem_cons.mpr ⟨hy, ih hys⟩

theorem lt_of_checkRange {a : Nat} {r : Range α} (h : checkRange a r = .ok ()) : r.1 < r.2 := by
  by_contra hnot
  simp [checkRange, hnot] at h

/-- The axis of an accepted range. -/
theorem axis_eq_ok {a : Nat} {p : Parameter α} {r : Range α} {layout : Layout α} {log : Bool}
    {made : Axis α} (h : axis a p r layout log = .ok made) :
    Scalar.larger r.1 p.lower < Scalar.smaller r.2 p.upper ∧
      made = Axis.make (Scalar.larger r.1 p.lower) (Scalar.smaller r.2 p.upper) layout log := by
  obtain ⟨_, _, h⟩ := exists_of_bind_eq_ok h
  obtain ⟨_, hclipped, h⟩ := exists_of_bind_eq_ok h
  obtain ⟨_, _, h⟩ := exists_of_bind_eq_ok h
  obtain ⟨_, _, h⟩ := exists_of_bind_eq_ok h
  exact ⟨lt_of_checkRange hclipped, (Except.ok.inj h).symm⟩

/-- An axis that passes the checks is accepted. -/
theorem axis_of_checks {a : Nat} {p : Parameter α} {r : Range α} {layout : Layout α} {log : Bool}
    (hrange : r.1 < r.2) (hclipped : Scalar.larger r.1 p.lower < Scalar.smaller r.2 p.upper)
    (hsteps : checkSteps a (Scalar.larger r.1 p.lower, Scalar.smaller r.2 p.upper) layout = .ok ())
    (hlog : checkLog a (Scalar.larger r.1 p.lower, Scalar.smaller r.2 p.upper) log = .ok ()) :
    axis a p r layout log =
      .ok (Axis.make (Scalar.larger r.1 p.lower) (Scalar.smaller r.2 p.upper) layout log) := by
  have hfirst : checkRange a r = .ok () := if_pos hrange
  have hsecond : checkRange a (Scalar.larger r.1 p.lower, Scalar.smaller r.2 p.upper) = .ok () :=
    if_pos hclipped
  unfold axis
  rw [hfirst]
  simp only [hsecond, hsteps, hlog]
  rfl

theorem getElem_of_mapM_finRange {ε ρ : Type} {f : Fin n → Except ε ρ} {v : Vector ρ n}
    (h : (Vector.finRange n).mapM f = .ok v) (a : Fin n) : f a = .ok (v.get a) := by
  have hlist := mapM_eq_ok_iff.mp (toList_mapM_eq_ok h)
  have hget := congrArg (fun l => l[a.val]?) hlist
  simpa [Vector.get] using hget

theorem isOk_of_checkLayouts {req : GridRequest α n} (h : req.checkLayouts = .ok ()) (a : Fin n) :
    (checkLayout n a (req.layout.get a)).isOk = true := by
  rw [forM_eq_ok h a (List.mem_finRange a)]
  rfl

variable {φ : Type} [Fit φ α]

/-- The ranges of a grid that is built are known, and its axes are made of them one by one. -/
theorem exists_ranges_of_build {fit after : φ} {idx : Vector Nat n} {req : GridRequest α n}
    {grid : Grid α n} (h : build fit idx req = (after, .ok grid)) :
    req.checkLayouts = .ok () ∧ ∃ rs, ranges fit idx req = (after, .ok rs) ∧ ∀ a : Fin n,
      axis a.val (Fit.parameter after (idx.get a)) (rs.get a) (req.layout.get a) (req.log.get a) =
        .ok (grid.axes.get a) := by
  unfold build at h
  cases hlayouts : req.checkLayouts with
  | error e => simp [hlayouts] at h
  | ok _ =>
      refine ⟨rfl, ?_⟩
      cases hranges : ranges fit idx req with
      | mk other outcome =>
          cases outcome with
          | error e => simp [hlayouts, hranges] at h
          | ok rs =>
              simp only [hlayouts, hranges, Prod.mk.injEq] at h
              obtain ⟨rfl, haxes⟩ := h
              obtain ⟨axes, hmade, rfl⟩ := exists_of_map_eq_ok haxes
              have haxes : (Vector.finRange n).mapM (fun a : Fin n => axis a.val
                  (Fit.parameter other (idx.get a)) (rs.get a) (req.layout.get a)
                    (req.log.get a)) = .ok axes := hmade
              exact ⟨rs, rfl, getElem_of_mapM_finRange haxes⟩

/-- The layouts of a grid that is built pass their checks, and its axes are made one by one. -/
theorem build_eq_ok {fit after : φ} {idx : Vector Nat n} {req : GridRequest α n} {grid : Grid α n}
    (h : build fit idx req = (after, .ok grid)) (a : Fin n) :
    (checkLayout n a (req.layout.get a)).isOk = true ∧ ∃ r : Range α,
      axis a (Fit.parameter after (idx.get a)) r (req.layout.get a) (req.log.get a) =
        .ok (grid.axes.get a) := by
  obtain ⟨hlayouts, rs, -, haxes⟩ := exists_ranges_of_build h
  exact ⟨isOk_of_checkLayouts hlayouts a, rs.get a, haxes a⟩

end GridRequest

section Fits

variable {α : Type} [Scalar α] [Scalar.Monotone α] {φ : Type} [Fit φ α] {n : Nat}
  {fit after : φ} {idx : Vector Nat n} {req : GridRequest α n} {grid : Grid α n}

open Scalar.Ordered Scalar.Monotone

/-- All parameters of a fit have finite limits. -/
def Fit.Limited (fit : φ) : Prop :=
  ∀ p ∈ parameters fit, Scalar.isFinite p.lower = true ∧ Scalar.isFinite p.upper = true

theorem Fit.Limited.parameter (h : Fit.Limited fit) (i : Nat) :
    Scalar.isFinite (Fit.parameter fit i).lower = true ∧
      Scalar.isFinite (Fit.parameter fit i).upper = true := by
  unfold Fit.parameter
  rw [List.getD_eq_getElem?_getD]
  cases hi : (Fit.parameters fit)[i]? with
  | none => exact ⟨isFinite_zero, isFinite_zero⟩
  | some p => exact h p (List.mem_of_getElem? hi)

/-- The range of an axis lies inside the limits of its parameter. -/
structure Axis.Inside (a : Axis α) (p : Parameter α) : Prop where
  le_lower : p.lower ≤ a.lower
  lt : a.lower < a.upper
  upper_le : a.upper ≤ p.upper

theorem Axis.Inside.isFinite {a : Axis α} {p : Parameter α} (h : a.Inside p)
    (hp : Scalar.isFinite p.lower = true ∧ Scalar.isFinite p.upper = true) :
    Scalar.isFinite a.lower = true ∧ Scalar.isFinite a.upper = true :=
  ⟨isFinite_of_between hp.1 hp.2 h.le_lower (le_trans (le_of_lt h.lt) h.upper_le),
    isFinite_of_between hp.1 hp.2 (le_trans h.le_lower (le_of_lt h.lt)) h.upper_le⟩

/-- The values at a point of a grid whose axes hold theirs are admitted by the limits. -/
theorem Grid.admits_point
    (hinside : ∀ a : Fin n, (grid.axes.get a).Inside (Fit.parameter fit (idx.get a)))
    (hcontained : ∀ a : Fin n, (grid.axes.get a).Contained) {p : Vector α n}
    (hp : p ∈ grid.mesh) :
    ∀ w ∈ idx.toList.zip (grid.toLinear p).toList, (Fit.parameter fit w.1).Admits w.2 := by
  obtain ⟨k, hk, rfl⟩ := List.mem_map.mp hp
  intro w hw
  obtain ⟨i, hi, rfl⟩ := List.mem_iff_getElem.mp hw
  have hin : i < n := by simpa using hi
  have hmem := grid.toLinear_point_mem (List.mem_range.mp hk) ⟨i, hin⟩
  obtain ⟨hl, hu⟩ := hcontained ⟨i, hin⟩ _ hmem
  have haxis := hinside ⟨i, hin⟩
  simp only [List.getElem_zip, Vector.getElem_toList]
  exact ⟨le_trans haxis.le_lower hl, le_trans hu haxis.upper_le⟩

variable [Fit.Lawful φ]

/-- Each axis of a grid that is built has its range inside the limits, and is made by its layout. -/
theorem GridRequest.inside_of_build (hlimits : Fit.Limited fit)
    (hbuild : req.build fit idx = (after, .ok grid)) (a : Fin n) :
    (grid.axes.get a).Inside (Fit.parameter fit (idx.get a)) ∧
      grid.axes.get a = Axis.make (grid.axes.get a).lower (grid.axes.get a).upper
        (req.layout.get a) (req.log.get a) := by
  have hparameters : Fit.parameters after = Fit.parameters fit := by
    simpa [hbuild] using parameters_build fit idx req
  have hparameter : Fit.parameter after (idx.get a) = Fit.parameter fit (idx.get a) := by
    rw [Fit.parameter, hparameters, Fit.parameter]
  obtain ⟨-, r, haxis⟩ := build_eq_ok hbuild a
  rw [hparameter] at haxis
  obtain ⟨hlower, hupper⟩ := hlimits.parameter (idx.get a)
  obtain ⟨hlt, hmade⟩ := axis_eq_ok haxis
  rw [hmade]
  exact ⟨⟨Scalar.le_larger (isNaN_of_isFinite hlower) _, hlt,
    Scalar.smaller_le (isNaN_of_isFinite hupper) _⟩, rfl⟩

/-- An axis that is built holds its values unless they are by count and the last computed one is
off. -/
theorem GridRequest.contained_iff_of_build (hlimits : Fit.Limited fit)
    (hbuild : req.build fit idx = (after, .ok grid)) (a : Fin n) :
    (grid.axes.get a).Contained ↔
      req.log.get a = true ∨
        (req.layout.get a).EndsBelow (grid.axes.get a).lower (grid.axes.get a).upper := by
  obtain ⟨hinside, hmade⟩ := inside_of_build hlimits hbuild a
  obtain ⟨hlower, hupper⟩ := hinside.isFinite (hlimits.parameter (idx.get a))
  have hlayout := (build_eq_ok hbuild a).1
  rw [hmade]
  exact Axis.contained_make_iff hlower hupper (le_of_lt hinside.lt) hlayout

/-- The fit that a scan evaluates copies of accepts the values of all points. -/
theorem GridRequest.assignAll_of_contained (hlimits : Fit.Limited fit)
    (hbuild : req.build fit idx = (after, .ok grid))
    (hcontained : ∀ a : Fin n, (grid.axes.get a).Contained)
    (mode : ScanMode) (method : Option Optimizer) {p : Vector α n} (hp : p ∈ grid.mesh) :
    (Evaluator.assignAll (Held.acquire after mode idx.toList method : Held φ α).fit
      (idx.toList.zip (grid.toLinear p).toList)).2 = .ok () := by
  have hparameters : Fit.parameters after = Fit.parameters fit := by
    simpa [hbuild] using parameters_build fit idx req
  have hthaw := Held.map_thaw_acquire after mode idx.toList method
  rw [hparameters] at hthaw
  rw [assignAll_snd, Parameters.writeAll_snd_of_thaw hthaw]
  exact Parameters.writeAll_of_admits
    (Grid.admits_point (fun a => (inside_of_build hlimits hbuild a).1) hcontained hp)

end Fits

/-- On a fit whose limits are finite, a grid of doubles that is built has its ranges inside the
limits. The values on a logarithmic axis and those by step lie in the range, and so do those by
count exactly when the last computed one does, as it does unless the range overflows, the step is
below the normal numbers or the points are more than `2⁵⁰`. Where all values lie in their ranges,
none is refused in a scan of either mode. -/
theorem build_contains_iff {φ : Type} [Fit φ Float] [Fit.Lawful φ] {n : Nat} {fit after : φ}
    {idx : Vector Nat n} {req : GridRequest Float n} {grid : Grid Float n}
    (hlimits : Fit.Limited fit) (hbuild : req.build fit idx = (after, .ok grid)) :
    (∀ a : Fin n, (grid.axes.get a).Inside (Fit.parameter fit (idx.get a)) ∧
      ((grid.axes.get a).Contained ↔ req.log.get a = true ∨
        (req.layout.get a).EndsBelow (grid.axes.get a).lower (grid.axes.get a).upper) ∧
      (Double.Ordinary (grid.axes.get a).lower (grid.axes.get a).upper (req.layout.get a) →
        (grid.axes.get a).Contained)) ∧
    ((∀ a : Fin n, (grid.axes.get a).Contained) →
      ∀ (mode : ScanMode) (method : Option Optimizer), ∀ p ∈ grid.mesh,
        (Evaluator.assignAll (Held.acquire after mode idx.toList method : Held φ Float).fit
          (idx.toList.zip (grid.toLinear p).toList)).2 = .ok ()) := by
  refine ⟨fun a => ?_, fun hcontained mode method p hp =>
    GridRequest.assignAll_of_contained hlimits hbuild hcontained mode method hp⟩
  have hinside := (GridRequest.inside_of_build hlimits hbuild a).1
  have hiff := GridRequest.contained_iff_of_build hlimits hbuild a
  refine ⟨hinside, hiff, fun hordinary => hiff.mpr (.inr ?_)⟩
  obtain ⟨hlower, hupper⟩ := hinside.isFinite (hlimits.parameter (idx.get a))
  exact Double.endsBelow_of_ordinary hlower hupper (Scalar.Ordered.le_of_lt hinside.lt)
    (GridRequest.build_eq_ok hbuild a).1 hordinary

/-- A level to be put through a point that is not known well, anywhere within wide limits. -/
def level : CurveFit Float where
  data := { name := "point", x := [0], y := [0], errors := some [1e300] }
  model :=
    { name := "const"
      parameters := [⟨"c0", 0, -1e308, 1e308, false⟩]
      curve := fun values _ => values.getD 0 0 }
  stat := .chi2
  config := { tolerance := 0 }

/-- Points by count over one range. -/
def counted (lower upper : Float) (count : Nat) : GridRequest Float 1 where
  lower := some #v[lower]
  upper := some #v[upper]
  layout := #v[.count count]
  factor := 1
  log := #v[false]

theorem limited_level : Fit.Limited level := by
  intro p hp
  obtain rfl := List.mem_singleton.mp hp
  decide +kernel

/-- The level is scanned over an ordinary range, and every value is accepted. -/
theorem level_contained : ∃ grid : Grid Float 1,
    (counted (-1) 1 5).build level #v[0] = (level, .ok grid) ∧ (grid.axes.get 0).Contained ∧
      ∀ p ∈ grid.mesh, (Evaluator.assignAll
        (Held.acquire level .uncertainty [0] none : Held (CurveFit Float) Float).fit
        ([0].zip (grid.toLinear p).toList)).2 = .ok () := by
  obtain ⟨grid, hgrid, hordinary⟩ := exists_of_toOption_any
    (x := ((counted (-1) 1 5).build level #v[0]).2)
    (p := fun grid => ((grid.axes.get 0).upper - (grid.axes.get 0).lower).isFinite ∧
      Double.leastNormal ≤ Spacing.evenStep (grid.axes.get 0).lower (grid.axes.get 0).upper 5)
    (by decide +kernel)
  have hbuild : (counted (-1) 1 5).build level #v[0] = (level, .ok grid) :=
    Prod.ext (GridRequest.build_fst level _ _) hgrid
  obtain ⟨haxes, hassign⟩ := build_contains_iff limited_level hbuild
  have hcontained : (grid.axes.get 0).Contained :=
    (haxes 0).2.2 ⟨by norm_num, of_decide_eq_true hordinary⟩
  refine ⟨grid, hbuild, hcontained, hassign (fun a => ?_) .uncertainty none⟩
  obtain rfl : a = 0 := Subsingleton.elim a 0
  exact hcontained

/-- The widest range that its limits allow is accepted too. It overflows, and the scan ends with a
value out of limits: the first one is a `NaN`. In a range of three smallest numbers the step is
rounded up to one of them, and the fourth of six points passes the end. -/
theorem level_not_contained : Fit.Limited level ∧
    (∃ plan : Plan Float 1,
      (Plan.prepare level #v["c0"] .uncertainty "" (counted (-1e308) 1e308 3) true).2 = .ok plan ∧
      (plan.grid.axes.get 0).linearValues.map Float.isNaN = [true, false, false] ∧
      ∃ x, (plan.execute level none).2 = .error (.fit (.outOfLimits "c0" x (-1e308) 1e308))) ∧
    ∃ grid : Grid Float 1, ((counted 0 1.5e-323 6).build level #v[0]).2 = .ok grid ∧
      (grid.axes.get 0).upper = 1.5e-323 ∧
      (grid.axes.get 0).linearValues = [0, 5e-324, 1e-323, 1.5e-323, 2e-323, 1.5e-323] := by
  refine ⟨limited_level, ?_, ?_⟩
  · obtain ⟨plan, hplan, hfacts⟩ := exists_of_toOption_any
      (x := (Plan.prepare level #v["c0"] .uncertainty "" (counted (-1e308) 1e308 3) true).2)
      (p := fun plan => (plan.grid.axes.get 0).linearValues.map Float.isNaN = [true, false, false] ∧
        (plan.execute level none).2 =
          .error (.fit (.outOfLimits "c0" Double.nan (-1e308) 1e308))) (by decide +kernel)
    obtain ⟨hvalues, houtcome⟩ := of_decide_eq_true hfacts
    exact ⟨plan, hplan, hvalues, Double.nan, houtcome⟩
  · obtain ⟨grid, hgrid, hfacts⟩ := exists_of_toOption_any
      (x := ((counted 0 1.5e-323 6).build level #v[0]).2)
      (p := fun grid => (grid.axes.get 0).upper = 1.5e-323 ∧
        (grid.axes.get 0).linearValues = [0, 5e-324, 1e-323, 1.5e-323, 2e-323, 1.5e-323])
      (by decide +kernel)
    exact ⟨grid, hgrid, of_decide_eq_true hfacts⟩

end ParameterScan
