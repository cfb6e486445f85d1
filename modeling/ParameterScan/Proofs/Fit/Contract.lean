import ParameterScan.Proofs.Fit.Reachable
import ParameterScan.Proofs.Fit.Search
import ParameterScan.Proofs.Scalar.Halfway

/-!
# The contract of a minimisation

A minimisation that succeeds leaves the values that it reports, inside the limits, and a statistic
that is read again as the number that it reports; everything else about the parameters is as before.
One that fails leaves all of them as they were. From values inside their limits no optimizer goes
up, so over any number of minimisations, by whatever optimizers and in whatever order, the statistic
does not increase.

The limits have to be in order and closed under going half way, which a shrinking simplex does. That
no optimizer goes up needs one thing more, that it starts where the values are. A value that equals
its limit is moved onto it before the search, and where one is zero and the other negative zero a
curve that looks at signs may have another statistic there, a higher one too. A curve that does not
tell the two zeros apart takes no notice, and with limits other than zero no value is moved.
-/
namespace ParameterScan.CurveFit

variable {α : Type} [Scalar α] {fit : CurveFit α}

/-- The thawed values lie within their limits. -/
def Inside (fit : CurveFit α) : Prop :=
  ∀ p ∈ Parameters.thawed fit.parameters, p.Admits p.value

instance (fit : CurveFit α) : Decidable fit.Inside :=
  inferInstanceAs (Decidable (∀ p ∈ Parameters.thawed fit.parameters, p.Admits p.value))

/-- The limits of the thawed parameters are in order and closed under going half way. -/
def ClosedLimits (fit : CurveFit α) : Prop :=
  ∀ p ∈ Parameters.thawed fit.parameters, Box.ClosedRange p.lower p.upper

/-- No thawed value is moved before a search, or the curve does not notice. -/
def StartsInPlace (fit : CurveFit α) : Prop :=
  fit.model.Numeric ∨
    fit.box.clamp (Parameters.thawedValues fit.parameters) = Parameters.thawedValues fit.parameters

/-- The curve does not tell the two zeros apart, or no limit is one of them. -/
def IgnoresZeros (fit : CurveFit α) : Prop :=
  fit.model.Numeric ∨ fit.box.Nonzero

/-- What a successful minimisation leaves, given what it reports. -/
structure Honours (fit after : CurveFit α) (r : FitResult α) : Prop where
  values_eq : Parameters.thawedValues after.parameters = r.values
  inside : after.Inside
  rewritten : List.Forall₂ Parameter.Rewritten fit.parameters after.parameters
  calcStat_eq : after.calcStat = .ok r.stat
  stat_le : ∀ s, fit.Inside → fit.calcStat = .ok s → fit.StartsInPlace → r.stat ≤ s

/-- A minimisation to be made: its optimizer, the tuning, and whether the model is kept started. -/
structure Attempt (α : Type) where
  method : Optimizer
  config : SearchConfig α
  reuse : Bool

/-- The fit with the settings of an attempt. -/
def set (fit : CurveFit α) (a : Attempt α) : CurveFit α :=
  { fit with method := a.method, config := a.config }

def attempt (fit : CurveFit α) (a : Attempt α) : CurveFit α × Except (FitError α) (FitResult α) :=
  (fit.set a).minimise a.reuse

/-- Each attempt that has its values inside the limits starts where they are. -/
def StaysInPlace : CurveFit α → List (Attempt α) → Prop
  | _, [] => True
  | fit, a :: rest => (fit.Inside → fit.StartsInPlace) ∧ StaysInPlace (fit.attempt a).1 rest

/-- The statistics of the attempts that succeed. -/
def stats : CurveFit α → List (Attempt α) → List α
  | _, [] => []
  | fit, a :: rest =>
      match fit.attempt a with
      | (fit, .ok r) => r.stat :: stats fit rest
      | (fit, .error _) => stats fit rest

theorem stats_cons_error {after : CurveFit α} {a : Attempt α} {e : FitError α}
    (h : fit.attempt a = (after, .error e)) (rest : List (Attempt α)) :
    fit.stats (a :: rest) = after.stats rest := by
  simp only [stats, h]

theorem stats_cons_ok {after : CurveFit α} {a : Attempt α} {r : FitResult α}
    (h : fit.attempt a = (after, .ok r)) (rest : List (Attempt α)) :
    fit.stats (a :: rest) = r.stat :: after.stats rest := by
  simp only [stats, h]

/-- A fit that can be followed through minimisations. -/
structure Tracked (fit : CurveFit α) : Prop where
  reachable : fit.Reachable
  limits : fit.ClosedLimits

/-- A fit with a statistic that no minimisation raises. -/
structure Steady (fit : CurveFit α) (s : α) : Prop where
  tracked : fit.Tracked
  inside : fit.Inside
  calcStat_eq : fit.calcStat = .ok s

theorem Inside.contains (h : fit.Inside) :
    fit.box.Contains (Parameters.thawedValues fit.parameters) :=
  Parameters.between_values_iff.mpr h

theorem statErrors_finished (fit : CurveFit α) (reuse : Bool) :
    (fit.finished reuse).statErrors = (fit.started reuse).statErrors := by
  cases reuse with
  | true => rfl
  | false =>
      have hstarted : (fit.started false).statErrors = fit.effectiveErrors := statErrors_startup fit
      rw [hstarted]
      exact (coherent_teardown fit.startup).statErrors

theorem Coherent.statErrors_started (h : fit.Coherent) (reuse : Bool) :
    (fit.started reuse).statErrors = fit.statErrors := by
  cases reuse with
  | true => rfl
  | false => exact (statErrors_startup fit).trans h.statErrors.symm

theorem Coherent.calcStat_finished (h : fit.Coherent) (reuse : Bool) :
    (fit.finished reuse).calcStat = fit.calcStat := by
  have herrors := (statErrors_finished fit reuse).trans (h.statErrors_started reuse)
  cases reuse with
  | true => rfl
  | false => exact calcStat_congr rfl rfl rfl herrors rfl

theorem calcStat_eq_ok {s : α} (h : fit.calcStat = .ok s) :
    fit.statAt fit.statErrors (Parameters.thawedValues fit.parameters) = s ∧
      Scalar.isFinite s = true := by
  unfold calcStat at h
  simp only at h
  split at h
  next hfinite =>
    cases h
    exact ⟨rfl, hfinite⟩
  next => cases h

theorem inside_of_contains {after : CurveFit α}
    (h : List.Forall₂ Parameter.Rewritten fit.parameters after.parameters)
    (hcontains : fit.box.Contains (Parameters.thawedValues after.parameters)) : after.Inside := by
  rw [← box_of_rewritten h] at hcontains
  exact Parameters.between_values_iff.mp hcontains

/-- The statistic at values before they are assigned is the one at the thawed values afterwards. -/
theorem statAt_withParameters {qs : List (Parameter α)}
    (h : List.Forall₂ Parameter.Rewritten fit.parameters qs) (errors : Option (List α)) :
    (fit.withParameters qs).statAt errors (Parameters.thawedValues qs) =
      fit.statAt errors (Parameters.thawedValues qs) := by
  unfold statAt curveAt
  rw [Parameters.substitute_of_rewritten h]
  rfl

/-- The statistic at values before they are assigned is the one that is read afterwards. -/
theorem calcStat_withParameters {qs : List (Parameter α)} {s : α}
    (h : List.Forall₂ Parameter.Rewritten fit.parameters qs)
    (hstat : fit.statAt fit.statErrors (Parameters.thawedValues qs) = s)
    (hfinite : Scalar.isFinite s = true) : (fit.withParameters qs).calcStat = .ok s := by
  have hvalue : (fit.withParameters qs).statAt (fit.withParameters qs).statErrors
      (Parameters.thawedValues (fit.withParameters qs).parameters) = s :=
    (statAt_withParameters h fit.statErrors).trans hstat
  unfold calcStat
  simp only [hvalue, hfinite, if_true]

theorem lifecycle_minimise (fit : CurveFit α) (reuse : Bool) :
    (fit.minimise reuse).1.lifecycle =
      if reuse then fit.lifecycle
      else ⟨fit.lifecycle.startups + 1, fit.lifecycle.teardowns + 1⟩ := by
  obtain ⟨ps, hps⟩ := exists_minimise_fst fit reuse
  rw [hps]
  cases reuse <;> rfl

/-- Whatever comes of a minimisation, only values of thawed parameters change. -/
theorem rewritten_minimise (fit : CurveFit α) (reuse : Bool) :
    List.Forall₂ Parameter.Rewritten fit.parameters (fit.minimise reuse).1.parameters := by
  rw [minimise_eq]
  cases (fit.started reuse).minimum with
  | error e => cases reuse <;> exact Parameters.rewritten_refl fit.parameters
  | ok m => exact Parameters.rewritten_assignThawed fit.parameters m.point

theorem box_attempt (fit : CurveFit α) (a : Attempt α) : (fit.attempt a).1.box = fit.box :=
  box_of_rewritten (rewritten_minimise (fit.set a) a.reuse)

theorem Tracked.attempt (h : fit.Tracked) (a : Attempt α) : (fit.attempt a).1.Tracked := by
  refine ⟨.minimise a.reuse (.settings a.method fit.estimator a.config h.reachable), ?_⟩
  refine closed_box_iff.mp ?_
  rw [box_attempt]
  exact closed_box_iff.mpr h.limits

theorem IgnoresZeros.attempt (h : fit.IgnoresZeros) (a : Attempt α) :
    (fit.attempt a).1.IgnoresZeros := by
  rw [IgnoresZeros, box_attempt]
  refine h.imp_left fun hcurve => ?_
  obtain ⟨ps, hps⟩ := exists_minimise_fst (fit.set a) a.reuse
  rw [CurveFit.attempt, hps]
  cases a.reuse <;> exact hcurve

variable [Scalar.Ordered α]

/-- A minimisation fails and changes no parameter, or writes what its search finds. -/
theorem minimise_cases (hlimits : fit.ClosedLimits) (reuse : Bool) :
    (∃ e, fit.minimise reuse = (fit.finished reuse, .error e)) ∨
      ∃ m qs, (fit.started reuse).Finds (fit.started reuse).box.Contains m ∧
        List.Forall₂ Parameter.Rewritten fit.parameters qs ∧
        Parameters.thawedValues qs = m.point ∧
        fit.minimise reuse = ((fit.finished reuse).withParameters qs,
          .ok ⟨m.value, m.point, m.evaluations, fit.method⟩) := by
  have hbox : (fit.started reuse).box.Closed := by
    cases reuse <;> exact closed_box_iff.mpr hlimits
  rw [minimise_eq]
  cases hminimum : (fit.started reuse).minimum with
  | error e => exact .inl ⟨e, rfl⟩
  | ok m =>
      have hfinds := finds_of_minimum hbox.retains hminimum
      have hadmits : List.Forall₂ Parameter.Admits (Parameters.thawed fit.parameters) m.point := by
        refine Parameters.between_iff.mp ?_
        cases reuse <;> exact hfinds.contains
      obtain ⟨qs, hassign, hrewritten, hvalues⟩ := Parameters.assignThawed_of_admits hadmits
      refine .inr ⟨m, qs, hfinds, hrewritten, hvalues, ?_⟩
      simp only [hassign]
      rfl

theorem Finds.le {inside : List α → Prop} {m : Minimum α} {s : α} (h : fit.Finds inside m)
    (hfinite : Scalar.isFinite s = true)
    (halike : Scalar.Alike fit.startStat s) : m.value ≤ s := by
  have hs := Scalar.Ordered.isNaN_of_isFinite hfinite
  have hle := halike.symm.le hs
  exact Scalar.Ordered.le_trans (h.le_start (Scalar.Ordered.isNaN_right hle))
    (halike.le (Scalar.Ordered.isNaN_right hle))

variable [Scalar.Congruent α]

theorem IgnoresZeros.startsInPlace (h : fit.IgnoresZeros) (hinside : fit.Inside) :
    fit.StartsInPlace := by
  rcases h with hcurve | hbox
  · exact .inl hcurve
  · exact .inr (hinside.contains.clamp_eq hbox)

/-- A curve that does not tell the two zeros apart notices no start. -/
theorem IgnoresZeros.staysInPlace (h : fit.IgnoresZeros) (attempts : List (Attempt α)) :
    fit.StaysInPlace attempts := by
  induction attempts generalizing fit with
  | nil => trivial
  | cons a rest ih => exact ⟨h.startsInPlace, ih (h.attempt a)⟩

/-- The statistic at the clamped start is the statistic at the values that were moved. -/
theorem startStat_alike {s : α} (hinside : fit.Inside) (hplace : fit.StartsInPlace)
    (hstat : fit.statAt fit.statErrors (Parameters.thawedValues fit.parameters) = s) :
    Scalar.Alike fit.startStat s := by
  rw [← hstat]
  rcases hplace with hcurve | hclamp
  · exact statAt_alike hcurve fit.statErrors hinside.contains.clamp_alike
  · rw [startStat, hclamp]
    exact .refl _

theorem honours_of_finds {m : Minimum α} {qs : List (Parameter α)} (hfit : fit.Coherent)
    {reuse : Bool} (hfinds : (fit.started reuse).Finds (fit.started reuse).box.Contains m)
    (hrewritten : List.Forall₂ Parameter.Rewritten fit.parameters qs)
    (hvalues : Parameters.thawedValues qs = m.point) :
    fit.Honours ((fit.finished reuse).withParameters qs)
      ⟨m.value, m.point, m.evaluations, fit.method⟩ := by
  refine ⟨hvalues, ?_, hrewritten, ?_, ?_⟩
  · refine inside_of_contains hrewritten ?_
    change fit.box.Contains (Parameters.thawedValues qs)
    rw [hvalues]
    cases reuse <;> exact hfinds.contains
  · refine calcStat_withParameters ?_ ?_ hfinds.isFinite
    · cases reuse <;> exact hrewritten
    · rw [hvalues, statErrors_finished, ← hfinds.statAt_eq]
      cases reuse <;> rfl
  · intro s hinside hs hplace
    obtain ⟨hstat, hfinite⟩ := calcStat_eq_ok hs
    refine hfinds.le hfinite (startStat_alike ?_ ?_ ?_)
    · cases reuse <;> exact hinside
    · cases reuse <;> exact hplace
    · rw [hfit.statErrors_started, ← hstat]
      cases reuse <;> rfl

/-- One attempt. A failure keeps the statistic, and a success that starts in place does not raise
it. -/
theorem Tracked.attempt_cases (h : fit.Tracked) (a : Attempt α) :
    (∃ after e, fit.attempt a = (after, .error e) ∧ after.Tracked ∧
        ∀ s, fit.Steady s → after.Steady s) ∨
      ∃ after r, fit.attempt a = (after, .ok r) ∧ after.Steady r.stat ∧
        ∀ s, fit.Steady s → fit.StartsInPlace → r.stat ≤ s := by
  have hcoherent : (fit.set a).Coherent := h.reachable.coherent
  have hlimits : (fit.set a).ClosedLimits := h.limits
  have htracked := h.attempt a
  rcases minimise_cases hlimits a.reuse with ⟨e, heq⟩ | ⟨m, qs, hfinds, hrewritten, hvalues, heq⟩
  · rw [CurveFit.attempt, heq] at htracked
    refine .inl ⟨_, e, heq, htracked, fun s hs => ⟨htracked, ?_, ?_⟩⟩
    · cases a.reuse <;> exact hs.inside
    · rw [hcoherent.calcStat_finished a.reuse]
      exact hs.calcStat_eq
  · have hhonours := honours_of_finds hcoherent hfinds hrewritten hvalues
    rw [CurveFit.attempt, heq] at htracked
    exact .inr ⟨_, _, heq, ⟨htracked, hhonours.inside, hhonours.calcStat_eq⟩,
      fun s hs hplace => hhonours.stat_le s hs.inside hs.calcStat_eq hplace⟩

theorem Steady.pairwise_stats {s : α} (h : fit.Steady s) (attempts : List (Attempt α))
    (hplace : fit.StaysInPlace attempts) :
    (s :: fit.stats attempts).Pairwise fun earlier later => later ≤ earlier := by
  induction attempts generalizing fit s with
  | nil => exact List.pairwise_singleton _ s
  | cons a rest ih =>
      obtain ⟨hstart, hrest⟩ := hplace
      rcases h.tracked.attempt_cases a with
        ⟨after, e, heq, -, hkept⟩ | ⟨after, r, heq, hsteady, hle⟩
      · rw [heq] at hrest
        rw [stats_cons_error heq]
        exact ih (hkept s h) hrest
      · rw [heq] at hrest
        have hlater := ih hsteady hrest
        have hle' := hle s h (hstart h.inside)
        rw [stats_cons_ok heq]
        refine List.pairwise_cons.mpr ⟨?_, hlater⟩
        intro t ht
        rcases List.mem_cons.mp ht with rfl | ht
        · exact hle'
        · exact Scalar.Ordered.le_trans (List.rel_of_pairwise_cons hlater ht) hle'

/-- The first success settles the values inside their limits, wherever they were before. -/
theorem Tracked.pairwise_stats (h : fit.Tracked) (attempts : List (Attempt α))
    (hplace : fit.StaysInPlace attempts) :
    (fit.stats attempts).Pairwise fun earlier later => later ≤ earlier := by
  induction attempts generalizing fit with
  | nil => exact .nil
  | cons a rest ih =>
      have hrest := hplace.2
      rcases h.attempt_cases a with ⟨after, e, heq, htracked, -⟩ | ⟨after, r, heq, hsteady, -⟩
      · rw [heq] at hrest
        rw [stats_cons_error heq]
        exact ih htracked hrest
      · rw [heq] at hrest
        rw [stats_cons_ok heq]
        exact hsteady.pairwise_stats rest hrest

/-- The whole contract, for any curve, any statistic, any optimizer and any tuning. That the
statistic does not rise is subject to starting in place, and nothing else is. -/
theorem minimise_honours_contract (hfit : fit.Reachable) (hlimits : fit.ClosedLimits)
    (reuse : Bool) :
    (fit.minimise reuse).1.lifecycle =
        (if reuse then fit.lifecycle
          else ⟨fit.lifecycle.startups + 1, fit.lifecycle.teardowns + 1⟩) ∧
      (∀ e, (fit.minimise reuse).2 = .error e →
        (fit.minimise reuse).1.parameters = fit.parameters) ∧
      (∀ r, (fit.minimise reuse).2 = .ok r → fit.Honours (fit.minimise reuse).1 r) ∧
      ∀ attempts, fit.StaysInPlace attempts →
        (fit.stats attempts).Pairwise fun earlier later => later ≤ earlier := by
  refine ⟨lifecycle_minimise fit reuse, ?_, ?_, ?_⟩
  · intro e he
    rcases minimise_cases hlimits reuse with ⟨e', heq⟩ | ⟨m, qs, -, -, -, heq⟩
    · rw [heq]
      cases reuse <;> rfl
    · rw [heq] at he
      cases he
  · intro r hr
    rcases minimise_cases hlimits reuse with ⟨e, heq⟩ | ⟨m, qs, hfinds, hrewritten, hvalues, heq⟩
    · rw [heq] at hr
      cases hr
    · rw [heq] at hr ⊢
      cases hr
      exact honours_of_finds hfit.coherent hfinds hrewritten hvalues
  · exact Tracked.pairwise_stats ⟨hfit, hlimits⟩

/-- A constant to be put through a single point, within limits on both sides of it. -/
def oneLevel : CurveFit Float where
  data := { name := "point", x := [0], y := [1.25] }
  model :=
    { name := "constant"
      parameters := [⟨"c0", 3, 0.5, 4.75, false⟩]
      curve := fun values _ => values.getD 0 0 }
  stat := .leastSquares
  config := { tolerance := 0 }

/-- One attempt with each optimizer. -/
def eachOptimizer : List (Attempt Float) :=
  [.levmar, .nelderMead, .monteCarlo].map fun method => ⟨method, { tolerance := 0 }, false⟩

/-- The contract applies to it: one minimisation does not raise the statistic, and neither does one
after the other. -/
theorem oneLevel_falls :
    oneLevel.Reachable ∧ oneLevel.ClosedLimits ∧ oneLevel.Inside ∧ oneLevel.StartsInPlace ∧
      oneLevel.StaysInPlace eachOptimizer ∧
      (∃ r s, (oneLevel.minimise false).2 = .ok r ∧ oneLevel.calcStat = .ok s ∧
        oneLevel.Honours (oneLevel.minimise false).1 r ∧ r.stat ≤ s) ∧
      (oneLevel.stats eachOptimizer).Pairwise fun earlier later => later ≤ earlier := by
  have hfit : oneLevel.Reachable := .made rfl
  have hlimits : oneLevel.ClosedLimits := by
    intro p hp
    obtain rfl := List.mem_singleton.mp hp
    exact Double.closedRange rfl rfl (by decide +kernel) (by decide +kernel)
  have hinside : oneLevel.Inside := by decide +kernel
  have hzeros : oneLevel.IgnoresZeros := by
    refine .inr ⟨?_, ?_⟩
    · intro l hl
      obtain rfl := List.mem_singleton.mp hl
      exact .inr (by decide +kernel)
    · intro u hu
      obtain rfl := List.mem_singleton.mp hu
      exact .inr (by decide +kernel)
  have hplace := hzeros.startsInPlace hinside
  have hstays := hzeros.staysInPlace eachOptimizer
  obtain ⟨r, hr⟩ := exists_of_isOk (x := (oneLevel.minimise false).2) (by decide +kernel)
  obtain ⟨s, hs⟩ := exists_of_isOk (x := oneLevel.calcStat) (by decide +kernel)
  obtain ⟨-, -, hhonours, hpairwise⟩ := minimise_honours_contract hfit hlimits false
  exact ⟨hfit, hlimits, hinside, hplace, hstays,
    ⟨r, s, hr, hs, hhonours r hr, (hhonours r hr).stat_le s hinside hs hplace⟩,
    hpairwise eachOptimizer hstays⟩

/-- A curve that is zero where the last parameter has a minus sign, negative zero included, and five
everywhere else, to be put through zero. -/
def signed (ps : List (Parameter Float)) : CurveFit Float where
  data := { name := "point", x := [0], y := [0] }
  model :=
    { name := "signed"
      parameters := ps
      curve := fun values _ => if 1 / values.getLastD 0 < 0 then 0 else 5 }
  stat := .chi2
  config := { tolerance := 0 }

/-- A negative zero at a lower limit of zero, on a curve that tells the two apart. The value is
inside its limits, but the search starts from zero, where the statistic is higher, and does not come
back. -/
theorem signed_rises :
    let fit := signed [⟨"c0", -0, 0, 4, false⟩]
    fit.Reachable ∧ fit.ClosedLimits ∧ fit.Inside ∧ fit.calcStat = .ok 0 ∧
      ∃ r, (fit.minimise false).2 = .ok r ∧ r.stat = 25 ∧ ¬ r.stat ≤ 0 := by
  intro fit
  obtain ⟨r, hr, hstat⟩ := exists_of_toOption_any (x := (fit.minimise false).2)
    (p := fun r => decide (r.stat = 25 ∧ ¬ r.stat ≤ 0)) (by decide +kernel)
  refine ⟨.made rfl, ?_, by decide +kernel, by decide +kernel, r, hr, of_decide_eq_true hstat⟩
  intro p hp
  obtain rfl := List.mem_singleton.mp hp
  exact Double.closedRange rfl rfl (by decide +kernel) (by decide +kernel)

end ParameterScan.CurveFit
