import ParameterScan.Proofs.Fit.Contract
import ParameterScan.Proofs.Scan.Containment
import ParameterScan.Proofs.Scan.History

/-!
# A released fit is back where it was held

Between the holding of a fit and its release anything may be done with it, as long as the limits of
its parameters are left alone: values written, parameters frozen and thawed, settings exchanged,
fits run with either outcome, even whole scans. One operation leaves the limits as they are, so by
induction any number of them do. When the flags are put back the same parameters are thawed as
before, and their old values, which the limits admitted then, are admitted again; so no refusal ends
the restoring of the values.

The order matters: values belong to the parameters that are thawed when they are assigned. A value
of a parameter that was frozen when the fit was held is not put back, and may have been moved.
-/
namespace ParameterScan

/-- Whether a scan freezes the parameter at a place. -/
def ScanMode.freezes (targets : List Nat) (place : Nat) : ScanMode → Bool
  | .projection => decide (place ∈ targets)
  | .uncertainty => true

section Parameters

variable {α : Type}

/-- A change to a parameter that leaves its limits. -/
def Parameter.KeepsLimits (change : Parameter α → Parameter α) : Prop :=
  ∀ p, (change p).lower = p.lower ∧ (change p).upper = p.upper

/-- The same flag and the same limits. -/
structure Parameter.Framed (p q : Parameter α) : Prop where
  frozen_eq : q.frozen = p.frozen
  lower_eq : q.lower = p.lower
  upper_eq : q.upper = p.upper

/-- The same flag and the same limits, and the same value unless the parameter is frozen. -/
structure Parameter.Reinstated (p q : Parameter α) : Prop extends Framed p q where
  value_eq : p.frozen = false → q.value = p.value

namespace Parameters

variable {ps qs : List (Parameter α)}

theorem framed_of_eq (hlimits : limits qs = limits ps)
    (hflags : qs.map Parameter.frozen = ps.map Parameter.frozen) :
    List.Forall₂ Parameter.Framed ps qs := by
  induction ps generalizing qs with
  | nil =>
      obtain rfl := List.map_eq_nil_iff.mp hflags
      exact .nil
  | cons p ps ih =>
      cases qs with
      | nil => cases hflags
      | cons q qs =>
          obtain ⟨hlimit, hlimits⟩ := List.cons.inj hlimits
          obtain ⟨hflag, hflags⟩ := List.cons.inj hflags
          obtain ⟨hlower, hupper⟩ := Prod.mk.inj hlimit
          exact .cons ⟨hflag, hlower, hupper⟩ (ih hlimits hflags)

/-- With the same flags the thawed values belong to the same parameters. -/
theorem reinstated_of_framed (h : List.Forall₂ Parameter.Framed ps qs)
    (hvalues : thawedValues qs = thawedValues ps) :
    List.Forall₂ Parameter.Reinstated ps qs := by
  induction h with
  | nil => exact .nil
  | @cons p q _ _ hpq _ ih =>
      cases hp : p.frozen with
      | true =>
          rw [thawedValues_cons_frozen hp, thawedValues_cons_frozen (hpq.frozen_eq.trans hp)]
            at hvalues
          exact .cons ⟨hpq, fun hthawed => absurd (hthawed.symm.trans hp) Bool.false_ne_true⟩
            (ih hvalues)
      | false =>
          rw [thawedValues_cons_thawed hp, thawedValues_cons_thawed (hpq.frozen_eq.trans hp)]
            at hvalues
          obtain ⟨hvalue, hvalues⟩ := List.cons.inj hvalues
          exact .cons ⟨hpq, fun _ => hvalue⟩ (ih hvalues)

/-- Values that were admitted are admitted by parameters with the same limits and flags. -/
theorem admits_of_framed [Scalar α] (hframed : List.Forall₂ Parameter.Framed ps qs)
    (h : ∀ p ∈ thawed ps, p.Admits p.value) :
    List.Forall₂ Parameter.Admits (thawed qs) (thawedValues ps) := by
  induction hframed with
  | nil => exact .nil
  | @cons p q _ _ hpq _ ih =>
      cases hp : p.frozen with
      | true =>
          rw [thawed_cons_frozen hp] at h
          rw [thawedValues_cons_frozen hp, thawed_cons_frozen (hpq.frozen_eq.trans hp)]
          exact ih h
      | false =>
          rw [thawed_cons_thawed hp] at h
          rw [thawedValues_cons_thawed hp, thawed_cons_thawed (hpq.frozen_eq.trans hp)]
          obtain ⟨⟨hl, hu⟩, h⟩ := List.forall_mem_cons.mp h
          exact .cons ⟨hpq.lower_eq ▸ hl, hpq.upper_eq ▸ hu⟩ (ih h)

end Parameters

end Parameters

variable {α : Type} [Scalar α] {fit : CurveFit α}

/-- An operation that leaves the limits of the parameters to themselves. All do but a write to the
limits. -/
def Operation.KeepsLimits : Operation α → Prop
  | .write _ change => Parameter.KeepsLimits change
  | _ => True

open Parameters (limits)

theorem CurveFit.limits_minimise (fit : CurveFit α) (reuse : Bool) :
    limits (fit.minimise reuse).1.parameters = limits fit.parameters := by
  have hfinished : (fit.finished reuse).parameters = fit.parameters := by cases reuse <;> rfl
  rw [minimise_eq]
  cases (fit.started reuse).minimum with
  | error e => exact congrArg limits hfinished
  | ok m =>
      have hrewritten := Parameters.rewritten_assignThawed fit.parameters m.point
      exact Parameters.limits_of_rewritten hrewritten

/-- One operation leaves the limits of all parameters as they are. -/
theorem CurveFit.limits_perform {op : Operation α} (h : op.KeepsLimits) :
    limits (fit.perform op).1.parameters = limits fit.parameters := by
  cases op with
  | startup => rfl
  | teardown => rfl
  | minimise reuse => exact fit.limits_minimise reuse
  | calcStat => rfl
  | estimateErrors => rfl
  | setMethod method => rfl
  | setEstimator estimator => rfl
  | setConfig config => rfl
  | assignThawed xs =>
      exact Parameters.limits_of_rewritten (Parameters.rewritten_assignThawed fit.parameters xs)
  | assign place x =>
      change limits (Fit.assign fit place x).1.parameters = _
      unfold Fit.assign
      cases hx : (Fit.parameter fit place).assign x with
      | error e => rfl
      | ok p =>
          rw [Parameter.eq_of_assign hx]
          exact Parameters.limits_modify_value fit.parameters place x
  | write place change => exact Parameters.limits_modify fun p _ => h p
  | interval mode options name refusal =>
      obtain ⟨_, -, hrestored, -⟩ := IntervalScan.compute_leftAsFound mode options fit name refusal
      exact congrArg limits hrestored.parameters
  | region mode options names refusal =>
      obtain ⟨_, -, hrestored, -⟩ := RegionScan.compute_leftAsFound mode options fit names refusal
      exact congrArg limits hrestored.parameters

theorem CurveFit.limits_run {ops : List (Operation α)} (h : ∀ op ∈ ops, op.KeepsLimits) :
    limits (fit.run ops).1.parameters = limits fit.parameters := by
  induction ops generalizing fit with
  | nil => rfl
  | cons op rest ih =>
      obtain ⟨hop, hrest⟩ := List.forall_mem_cons.mp h
      exact (ih hrest).trans (limits_perform hop)

namespace Held

omit [Scalar α] in
theorem map_frozen_restoreFlags {ps : List (Parameter α)} {flags : List Bool}
    (h : ps.length = flags.length) : (restoreFlags ps flags).map Parameter.frozen = flags := by
  induction ps generalizing flags with
  | nil =>
      obtain rfl := List.length_eq_zero_iff.mp h.symm
      rfl
  | cons p ps ih =>
      cases flags with
      | nil => cases h
      | cons b flags => exact congrArg (b :: ·) (ih (Nat.succ.inj h))

omit [Scalar α] in
theorem map_thaw_restoreFlags (ps : List (Parameter α)) (flags : List Bool) :
    (restoreFlags ps flags).map Parameter.thaw = ps.map Parameter.thaw := by
  induction ps generalizing flags with
  | nil => cases flags <;> rfl
  | cons p ps ih =>
      cases flags with
      | nil => rfl
      | cons b flags => exact congrArg (p.thaw :: ·) (ih flags)

theorem release_eq (h : Held (CurveFit α) α) :
    h.release = { h.fit.teardown.withParameters
      (Parameters.assignThawed (restoreFlags h.fit.parameters h.frozen) h.values).1 with
        method := h.method } := rfl

/-- Parameters whose limits are those of the fit that was held get back the flags and the values
that were thawed. -/
theorem reinstated_release {h : Held (CurveFit α) α} {ps : List (Parameter α)}
    (hlimits : limits h.fit.parameters = limits ps) (hfrozen : h.frozen = ps.map Parameter.frozen)
    (hvalues : h.values = Parameters.thawedValues ps)
    (hinside : ∀ p ∈ Parameters.thawed ps, p.Admits p.value) :
    List.Forall₂ Parameter.Reinstated ps h.release.parameters := by
  have hlength : h.fit.parameters.length = (ps.map Parameter.frozen).length := by
    simpa [limits] using congrArg List.length hlimits
  have hflags := map_frozen_restoreFlags hlength
  have hkept := (Parameters.limits_of_thaw
    (map_thaw_restoreFlags h.fit.parameters (ps.map Parameter.frozen))).trans hlimits
  obtain ⟨qs, hassign, hrewritten, hthawed⟩ :=
    Parameters.assignThawed_of_admits
      (Parameters.admits_of_framed (Parameters.framed_of_eq hkept hflags) hinside)
  rw [release_eq, hfrozen, hvalues, hassign]
  refine Parameters.reinstated_of_framed (Parameters.framed_of_eq ?_ ?_) hthawed
  · exact (Parameters.limits_of_rewritten hrewritten).trans hkept
  · exact (Parameters.map_eq_of_rewritten Parameter.Rewritten.frozen_eq hrewritten).trans hflags

/-- A fit that has just been held differs in the flags that the scan put up. -/
theorem getElem?_acquire (fit : CurveFit α) (mode : ScanMode) (targets : List Nat)
    (method : Option Optimizer) (j : Nat) :
    (acquire fit mode targets method).fit.parameters[j]? =
      fit.parameters[j]?.map fun p => { p with frozen := p.frozen || mode.freezes targets j } := by
  cases mode with
  | projection =>
      have hps : (acquire fit .projection targets method).fit.parameters =
          Parameters.freezeAt targets fit.parameters := by
        unfold acquire
        rw [freezeFor_projection]
        rfl
      rw [hps, Parameters.getElem?_freezeAt]
      cases fit.parameters[j]? with
      | none => split_ifs <;> rfl
      | some p => by_cases hj : j ∈ targets <;> simp [ScanMode.freezes, Parameter.freeze, hj]
  | uncertainty =>
      have hps : (acquire fit .uncertainty targets method).fit.parameters =
          fit.parameters.map Parameter.freeze := rfl
      rw [hps, List.getElem?_map]
      cases fit.parameters[j]? with
      | none => rfl
      | some p => simp [ScanMode.freezes, Parameter.freeze]

/-- A fit that has just been held has frozen parameters where it had them and where the scan asks
for them, and no value has moved. Whatever is done with it then, as long as the limits are left
alone, its release puts back every flag, the values of the parameters that were thawed, and the
optimizer. -/
theorem release_reinstates (hinside : fit.Inside) (mode : ScanMode) (targets : List Nat)
    (method : Option Optimizer) {ops : List (Operation α)} (hops : ∀ op ∈ ops, op.KeepsLimits) :
    let held : Held (CurveFit α) α := acquire fit mode targets method
    let after := release { held with fit := (held.fit.run ops).1 }
    (∀ j : Nat, held.fit.parameters[j]? = fit.parameters[j]?.map fun p =>
        ({ p with frozen := p.frozen || mode.freezes targets j } : Parameter α)) ∧
      List.Forall₂ Parameter.Reinstated fit.parameters after.parameters ∧
      after.method = fit.method := by
  intro held after
  refine ⟨getElem?_acquire fit mode targets method, ?_, rfl⟩
  have hheld : limits held.fit.parameters = limits fit.parameters :=
    Parameters.limits_of_thaw (map_thaw_acquire fit mode targets method)
  exact reinstated_release ((CurveFit.limits_run hops).trans hheld) rfl rfl hinside

end Held

/-- Two levels and one that is kept. -/
def threeLevels : CurveFit Float where
  data := { name := "levels", x := [0, 1, 2], y := [4, 1, 3] }
  model :=
    { name := "levels"
      parameters := [⟨"a", 2, 0, 9, false⟩, ⟨"b", 1, 0, 9, true⟩, ⟨"c", 5, 0, 9, false⟩]
      curve := fun values _ => values.getD 0 0 + values.getD 2 0 }
  stat := .leastSquares
  config := { tolerance := 0 }

/-- Values are moved out of the limits, the flags are turned round, a vector is refused for its
length, and fits are run with and without a startup of their own. -/
def meddling : List (Operation Float) :=
  [.write 0 fun p => { p with value := 42 }, .setMethod .nelderMead, .setEstimator .confidence,
    .minimise false, .write 1 Parameter.thaw, .write 2 Parameter.freeze, .assignThawed [3, 10],
    .minimise true, .startup, .write 2 fun p => { p with value := -7 }, .teardown]

/-- The two levels that were thawed are back after the meddling. -/
theorem threeLevels_reinstated :
    let held : Held (CurveFit Float) Float :=
      Held.acquire threeLevels .projection [0] (some .monteCarlo)
    let after := Held.release { held with fit := (held.fit.run meddling).1 }
    threeLevels.Inside ∧ (∀ op ∈ meddling, op.KeepsLimits) ∧
      held.fit.parameters.map Parameter.frozen = [true, true, false] ∧
      List.Forall₂ Parameter.Reinstated threeLevels.parameters after.parameters ∧
      after.method = .levmar := by
  intro held after
  have hinside : threeLevels.Inside := by decide +kernel
  have hops : ∀ op ∈ meddling, op.KeepsLimits := by
    simp [meddling, Operation.KeepsLimits, Parameter.KeepsLimits, Parameter.thaw, Parameter.freeze]
  obtain ⟨-, hparameters, hmethod⟩ :=
    Held.release_reinstates hinside .projection [0] (some .monteCarlo) hops
  exact ⟨hinside, hops, rfl, hparameters, hmethod⟩

end ParameterScan
