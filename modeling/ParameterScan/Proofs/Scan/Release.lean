import ParameterScan.Fit.Estimate
import ParameterScan.Proofs.Parameter
import ParameterScan.Scan.Hold

/-!
# A released fit is the fit that was held

Freezing touches nothing but flags, so that putting the flags back gives the parameters as they
were. The values are then assigned where they already stand: a value that its parameter refuses, a
`NaN` or one outside the limits, ends that assignment with nothing left undone. Hence the release
of a held curve fit is the fit after a startup and a teardown, for any parameters at all.
-/
namespace ParameterScan.Held

variable {α : Type}

/-- Parameters that differ in their flags only get them back. -/
theorem restoreFlags_frozen {ps qs : List (Parameter α)}
    (h : qs.map Parameter.thaw = ps.map Parameter.thaw) :
    restoreFlags qs (ps.map Parameter.frozen) = ps := by
  induction qs generalizing ps with
  | nil =>
      cases ps with
      | nil => rfl
      | cons p ps => simp at h
  | cons q qs ih =>
      cases ps with
      | nil => simp at h
      | cons p ps =>
          simp only [List.map_cons, List.cons.injEq] at h
          have hq : { q with frozen := p.frozen } = p := by
            cases p
            cases q
            simp_all [Parameter.thaw]
          simp only [List.map_cons, restoreFlags, ih h.2, hq]

variable [Scalar α]

theorem freezeFor_projection (targets : List Nat) (fit : CurveFit α) :
    freezeFor .projection targets fit =
      fit.withParameters (Parameters.freezeAt targets fit.parameters) := by
  induction targets generalizing fit with
  | nil => rfl
  | cons i rest ih => exact ih (Fit.modifyParameter fit i Parameter.freeze)

/-- Freezing gives the same fit with parameters that differ in their flags only. -/
theorem exists_freezeFor (mode : ScanMode) (targets : List Nat) (fit : CurveFit α) :
    ∃ ps, freezeFor mode targets fit = fit.withParameters ps ∧
      ps.map Parameter.thaw = fit.parameters.map Parameter.thaw := by
  cases mode with
  | uncertainty =>
      refine ⟨fit.parameters.map Parameter.freeze, rfl, ?_⟩
      rw [List.map_map]
      rfl
  | projection =>
      exact ⟨_, freezeFor_projection targets fit, map_thaw_freezeAt targets fit.parameters⟩

/-- Whatever was frozen and whichever optimizer was put in, a released fit is the one that was held,
started up and torn down once. -/
theorem release_acquire (fit : CurveFit α) (mode : ScanMode) (targets : List Nat)
    (method : Option Optimizer) :
    (acquire fit mode targets method).release = fit.startup.teardown := by
  obtain ⟨ps, hfrozen, hps⟩ :=
    exists_freezeFor mode targets (Fit.withMethod fit (method.getD (Fit.method fit)))
  have hflags : restoreFlags ps (fit.parameters.map Parameter.frozen) = fit.parameters :=
    restoreFlags_frozen hps
  have hvalues := Parameters.assignThawed_thawedValues fit.parameters
  unfold acquire
  rw [hfrozen]
  change { (CurveFit.withParameters _ (Parameters.assignThawed
    (restoreFlags ps (fit.parameters.map Parameter.frozen))
      (Parameters.thawedValues fit.parameters)).1) with method := fit.method } = _
  rw [hflags, hvalues]
  rfl

end ParameterScan.Held
