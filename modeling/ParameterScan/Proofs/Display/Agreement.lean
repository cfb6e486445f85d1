import ParameterScan.Proofs.Display

/-!
# The displays agree with the statistic and with each other

A display evaluates the curve at all values of the parameters and takes the errors of the data, or
those of the statistic where it has any. The statistic puts the thawed values into the parameters
and takes the errors that were kept by a startup, if there was one. Both come to the same numbers:
the thawed values put in are the values that stand, and what was kept is what is there without it.
So the displays add up to the statistic, to the last bit and in the order of the points.

Nothing is asked of the arithmetic.
-/
namespace ParameterScan

variable {α : Type} [Scalar α] {fit : CurveFit α}

namespace CurveFit

/-- A value of the statistic as it comes back: alone, or in the failure of one that is not
finite. -/
def reported (value : α) : Except (FitError α) α :=
  if Scalar.isFinite value then .ok value else .error (.nonFiniteStat value)

theorem calcStat_eq_reported (fit : CurveFit α) :
    fit.calcStat = reported (fit.stat.value fit.data.y fit.modelValues fit.statErrors) := by
  rw [← statAt_thawedValues]
  rfl

/-- A statistic that estimates errors always has some to work with. -/
theorem exists_effectiveErrors (h : fit.stat.hasErrors = true) :
    ∃ errors, fit.effectiveErrors = some errors := by
  unfold effectiveErrors
  cases fit.data.errors with
  | some given => exact ⟨given, rfl⟩
  | none => exact ⟨_, if_pos h⟩

end CurveFit

namespace Display

/-- A display of so many points, with a bar for each of them if it has bars. -/
structure Sized (d : Display α) (n : Nat) : Prop where
  x : d.x.length = n
  y : d.y.length = n
  errors : ∀ bars, d.errors = some bars → bars.length = n

theorem length_differences (hdata : fit.data.Shaped) :
    (differences fit).length = fit.data.x.length := by
  rw [differences, List.length_zipWith, fit.length_modelValues, hdata.length_eq, Nat.min_self]

theorem length_scaled (hdata : fit.data.Shaped) {errors : List α}
    (h : fit.effectiveErrors = some errors) : (scaled fit errors).length = fit.data.x.length := by
  rw [scaled, List.length_zipWith, length_differences hdata,
    CurveFit.length_effectiveErrors hdata h, Nat.min_self]

/-- Any errors at all are enough for `delchi`, and its bars are one for each of them. -/
theorem delchi_eq_ok {d : Display α} (h : delchi fit = .ok d) :
    ∃ errors, fit.effectiveErrors = some errors ∧ d.x = fit.data.x ∧ d.y = scaled fit errors ∧
      d.errors = some (errors.map fun _ => 1) := by
  unfold delchi at h
  rw [delchiErrors_eq] at h
  cases herrors : fit.effectiveErrors with
  | none =>
      rw [herrors] at h
      cases h
  | some errors =>
      rw [herrors] at h
      obtain rfl := Except.ok.inj h
      exact ⟨errors, rfl, rfl, rfl, rfl⟩

theorem chisqr_eq_ok {d : Display α} (h : chisqr fit = .ok d) :
    ∃ errors, fit.effectiveErrors = some errors ∧ d.x = fit.data.x ∧
      d.y = (scaled fit errors).map (fun r => r * r) ∧ d.errors = none := by
  unfold chisqr at h
  cases herrors : fit.pointErrors with
  | none =>
      rw [herrors] at h
      cases h
  | some errors =>
      rw [herrors] at h
      obtain rfl := Except.ok.inj h
      exact ⟨errors, CurveFit.effectiveErrors_of_pointErrors herrors, rfl, rfl, rfl⟩

theorem exists_delchi {errors : List α} (h : fit.effectiveErrors = some errors) :
    ∃ d, delchi fit = .ok d ∧ d.y = scaled fit errors := by
  unfold delchi
  rw [delchiErrors_eq, h]
  exact ⟨_, rfl, rfl⟩

theorem exists_chisqr {errors : List α} (hstat : fit.stat.hasErrors = true)
    (h : fit.effectiveErrors = some errors) :
    ∃ d, chisqr fit = .ok d ∧ d.y = (scaled fit errors).map fun r => r * r := by
  unfold chisqr CurveFit.pointErrors
  rw [if_pos hstat, h]
  exact ⟨_, rfl, rfl⟩

theorem sized_of_ofKind (hdata : fit.data.Shaped) {kind : DisplayKind} {d : Display α}
    (h : ofKind fit kind = .ok d) : d.Sized fit.data.x.length := by
  cases kind with
  | residual =>
      obtain rfl := Except.ok.inj h
      refine ⟨rfl, length_differences hdata, fun bars hbars => ?_⟩
      exact CurveFit.length_effectiveErrors hdata (CurveFit.effectiveErrors_of_pointErrors hbars)
  | ratio =>
      obtain rfl := Except.ok.inj h
      refine ⟨rfl, ?_, fun bars hbars => ?_⟩
      · simp [ratio, fit.length_modelValues, hdata.length_eq]
      · obtain ⟨errors, herrors, rfl⟩ := Option.map_eq_some_iff.mp hbars
        have hlength := CurveFit.length_effectiveErrors hdata
          (CurveFit.effectiveErrors_of_pointErrors herrors)
        simp [fit.length_modelValues, hlength]
  | delchi =>
      obtain ⟨errors, herrors, hx, hy, hbars⟩ := delchi_eq_ok h
      refine ⟨congrArg _ hx, hy ▸ length_scaled hdata herrors, fun bars h => ?_⟩
      rw [hbars] at h
      rw [← Option.some.inj h, List.length_map, CurveFit.length_effectiveErrors hdata herrors]
  | chisqr =>
      obtain ⟨errors, herrors, hx, hy, hnone⟩ := chisqr_eq_ok h
      refine ⟨congrArg _ hx, ?_, fun bars h => ?_⟩
      · rw [hy, List.length_map, length_scaled hdata herrors]
      · rw [hnone] at h
        cases h

/-- Whatever was done with a fit before, its displays have a value for each point of the data and a
bar for each where they have bars. Where there is a `chisqr` there is a `delchi`, the squares of
which it shows, and `delchi` shows the residuals divided by the effective errors. With chi-square
`chisqr` is there and adds up to the statistic, finite or not; with least squares so do the squares
of the residuals. -/
theorem displays_agree (hfit : fit.Built) (before : List (Operation α)) :
    let reached := (fit.run before).1
    (∀ kind d, ofKind reached kind = .ok d → d.Sized fit.data.x.length) ∧
      (∀ d, chisqr reached = .ok d →
        ∃ s, delchi reached = .ok s ∧ d.y = s.y.map fun r => r * r) ∧
      (∀ s, delchi reached = .ok s → ∃ errors, reached.effectiveErrors = some errors ∧
        errors.length = fit.data.x.length ∧
        s.y = List.zipWith (fun r e => r / e) (residual reached).y errors) ∧
      (reached.stat = .chi2 → ∃ d, chisqr reached = .ok d ∧
        reached.calcStat = CurveFit.reported (Scalar.sum d.y)) ∧
      (reached.stat = .leastSquares → reached.calcStat =
        CurveFit.reported (Scalar.sum ((residual reached).y.map fun r => r * r))) := by
  intro reached
  obtain ⟨hcoherent, hdata, -⟩ := hfit.coherent.run before
  have hshaped : reached.data.Shaped := hdata ▸ hfit.data.shaped
  have hx : fit.data.x = reached.data.x := congrArg Dataset.x hdata.symm
  have hreported := reached.calcStat_eq_reported
  rw [hcoherent.statErrors] at hreported
  rw [hx]
  refine ⟨fun _ _ h => sized_of_ofKind hshaped h, fun d h => ?_, fun s h => ?_, fun hchi => ?_,
    fun hleast => ?_⟩
  · obtain ⟨errors, herrors, -, hy, -⟩ := chisqr_eq_ok h
    obtain ⟨s, hs, hsy⟩ := exists_delchi herrors
    exact ⟨s, hs, by rw [hy, hsy]⟩
  · obtain ⟨errors, herrors, -, hy, -⟩ := delchi_eq_ok h
    exact ⟨errors, herrors, CurveFit.length_effectiveErrors hshaped herrors, hy⟩
  · have hhas : reached.stat.hasErrors = true := hchi ▸ rfl
    obtain ⟨errors, herrors⟩ := CurveFit.exists_effectiveErrors hhas
    obtain ⟨d, hd, hy⟩ := exists_chisqr hhas herrors
    refine ⟨d, hd, ?_⟩
    rw [hreported, hchi, herrors, hy]
    rfl
  · rw [hreported, hleast]
    rfl

/-- In the middle of a session with the counts, and with the level held, the squares of the sigmas
are one and four, and the statistic is five. -/
theorem counts_displays_agree :
    counts.Built ∧
      let reached := (counts.run [.startup, .write 0 Parameter.freeze]).1
      ∃ d, chisqr reached = .ok d ∧ d.y = [1, 4] ∧ reached.calcStat = .ok 5 := by
  refine ⟨built_counts, ?_⟩
  intro reached
  obtain ⟨-, -, -, hchi, -⟩ := displays_agree built_counts [.startup, .write 0 Parameter.freeze]
  obtain ⟨d, hd, hstat⟩ := hchi rfl
  have hy : (chisqr reached).toOption.map Display.y = some [1, 4] := by decide +kernel
  rw [hd] at hy
  have hvalues : d.y = [1, 4] := Option.some.inj hy
  have hsum : Scalar.sum ([1, 4] : List Float) = 5 := by decide +kernel
  refine ⟨d, hd, hvalues, hstat.trans ?_⟩
  rw [hvalues, hsum]
  rfl

end Display

end ParameterScan
