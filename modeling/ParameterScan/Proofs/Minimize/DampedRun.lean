import ParameterScan.Proofs.Minimize.DampedLeastSquares
import ParameterScan.Proofs.Minimize.Trail
import ParameterScan.Proofs.Scalar.Monotone

/-!
# The run of a damped search

`Tries` and `Runs` describe the trials of a round and the rounds of a search without a fuel. The
search comes to an end in the way they describe. For the rounds this is so because each of them
makes an evaluation. For the trials it is shown on doubles: the damping starts from a floor and
grows tenfold with each trial that does not go downhill, and it can be multiplied by ten from the
floor to the limit in fewer steps than there are trials. What a step leads to does not matter.
-/
namespace ParameterScan.DampedLeastSquares

open ParameterScan.Derivative (forwardPoints)

variable {α : Type} [Scalar α] {propose : Proposal α} {resid : List α → Option (List α)}
  {box : Box α} {tolerance : α} {budget : Nat} {values : List (List α)} {s s' : State α}

/-- Another trial is made. -/
def State.Open (budget : Nat) (s : State α) : Prop :=
  s.damping < maxDamping ∧ s.trail.count < budget

/-- The point to which a step leads. -/
def State.stepped (box : Box α) (s : State α) (step : List α) : List α :=
  box.clamp (List.zipWith (· + ·) s.point step)

def State.raised (s : State α) : State α := { s with damping := s.damping * 10 }

/-- The state at a point that went downhill. -/
def State.lowered (s : State α) (x r : List α) : State α :=
  ⟨x, r, Scalar.sumSq r, Scalar.larger (s.damping * 0.1) 1e-12, s.trail.visit x⟩

/-- The state after a Jacobian. -/
def State.differentiated (s : State α) : State α :=
  { s with trail := s.trail.visitAll (forwardPoints s.point) }

@[simp] theorem State.point_differentiated (s : State α) : s.differentiated.point = s.point := rfl

@[simp] theorem State.value_differentiated (s : State α) : s.differentiated.value = s.value := rfl

@[simp] theorem State.trail_differentiated (s : State α) :
    s.differentiated.trail = s.trail.visitAll (forwardPoints s.point) := rfl

/-- The trials of a round, given the residuals ahead. -/
inductive Tries (propose : Proposal α) (resid : List α → Option (List α)) (box : Box α)
    (tolerance : α) (budget : Nat) (values : List (List α)) :
    State α → State α × Option Bool → Prop
  | ended {s : State α} : ¬s.Open budget →
      Tries propose resid box tolerance budget values s (s, none)
  | unsolved {s : State α} {o : State α × Option Bool} : s.Open budget →
      propose s.point s.resid values s.damping = none →
      Tries propose resid box tolerance budget values s.raised o →
      Tries propose resid box tolerance budget values s o
  | uphill {s : State α} {o : State α × Option Bool} {step : List α} : s.Open budget →
      propose s.point s.resid values s.damping = some step →
      (∀ r, resid (s.stepped box step) = some r → ¬Scalar.sumSq r < s.value) →
      Tries propose resid box tolerance budget values
        { s.raised with trail := s.trail.visit (s.stepped box step) } o →
      Tries propose resid box tolerance budget values s o
  | downhill {s : State α} {step r : List α} : s.Open budget →
      propose s.point s.resid values s.damping = some step →
      resid (s.stepped box step) = some r → Scalar.sumSq r < s.value →
      Tries propose resid box tolerance budget values s
        (s.lowered (s.stepped box step) r, some (closeTo tolerance s.value (Scalar.sumSq r)))

/-- The rounds of a search, from a state through the accepted ones to the outcome. -/
inductive Runs (propose : Proposal α) (resid : List α → Option (List α)) (box : Box α)
    (tolerance : α) (budget : Nat) : State α → List (State α) → Minimum α → Prop
  | spent {s : State α} : budget ≤ s.trail.count →
      Runs propose resid box tolerance budget s [] (s.outcome false)
  | exact {s : State α} : s.trail.count < budget → (s.value == 0) = true →
      Runs propose resid box tolerance budget s [] (s.outcome true)
  | blind {s : State α} {used : List (List α)} : s.trail.count < budget → (s.value == 0) = false →
      evaluateAll resid (forwardPoints s.point) = (used, none) →
      Runs propose resid box tolerance budget s []
        ({ s with trail := s.trail.glance used }.outcome false)
  | stuck {s s' : State α} {values : List (List α)} : s.trail.count < budget →
      (s.value == 0) = false →
      evaluateAll resid (forwardPoints s.point) = (forwardPoints s.point, some values) →
      Tries propose resid box tolerance budget values s.differentiated (s', none) →
      Runs propose resid box tolerance budget s []
        (s'.outcome (decide (maxDamping ≤ s'.damping)))
  | settled {s s' : State α} {values : List (List α)} : s.trail.count < budget →
      (s.value == 0) = false →
      evaluateAll resid (forwardPoints s.point) = (forwardPoints s.point, some values) →
      Tries propose resid box tolerance budget values s.differentiated (s', some true) →
      Runs propose resid box tolerance budget s [s'] (s'.outcome true)
  | next {s s' : State α} {values : List (List α)} {accepted : List (State α)} {m : Minimum α} :
      s.trail.count < budget → (s.value == 0) = false →
      evaluateAll resid (forwardPoints s.point) = (forwardPoints s.point, some values) →
      Tries propose resid box tolerance budget values s.differentiated (s', some false) →
      Runs propose resid box tolerance budget s' accepted m →
      Runs propose resid box tolerance budget s (s' :: accepted) m

/-- A step that went downhill has been evaluated. -/
theorem Tries.count_lt {o : State α × Option Bool}
    (h : Tries propose resid box tolerance budget values s o) (hmet : o.2 ≠ none) :
    s.trail.count < o.1.trail.count := by
  induction h with
  | ended _ => exact absurd rfl hmet
  | unsolved _ _ _ ih => exact ih hmet
  | uphill _ _ _ _ ih => exact Nat.lt_of_succ_lt (ih hmet)
  | downhill _ _ _ _ => exact Nat.lt_succ_self _

section Evaluations

omit [Scalar α] in
/-- The points are used up to the first one that has no residuals. -/
theorem evaluateAll_fst_isPrefix (resid : List α → Option (List α)) (xs : List (List α)) :
    (evaluateAll resid xs).1 <+: xs := by
  induction xs with
  | nil => exact List.nil_prefix
  | cons x xs ih =>
      unfold evaluateAll
      split
      · exact List.prefix_append [x] xs
      · exact (List.prefix_cons_inj x).mpr ih

omit [Scalar α] in
theorem evaluateAll_fst_of_some {xs used rs : List (List α)}
    (h : evaluateAll resid xs = (used, some rs)) : used = xs := by
  induction xs generalizing used rs with
  | nil => exact (Prod.mk.inj h).1.symm
  | cons x xs ih =>
      unfold evaluateAll at h
      split at h
      · simp at h
      next r hr =>
        cases heval : evaluateAll resid xs with
        | mk used' rs' =>
            cases rs' with
            | none => simp [heval] at h
            | some rs' =>
                have hused : used' = xs := ih heval
                simp only [heval, hused, Prod.mk.injEq] at h
                exact h.1.symm

@[simp] theorem length_forwardPoints (x : List α) : (forwardPoints x).length = x.length := by
  simp [forwardPoints]

theorem glance_forwardPoints (t : Trail α) (x : List α) :
    { (t.glance (forwardPoints x)) with count := t.count + x.length } =
      t.visitAll (forwardPoints x) := by
  simp [Trail.glance, Trail.visitAll]

/-- What follows the trials of a round: the end of the search or the next round. -/
def conclude (next : State α → Minimum α) : State α × Option Bool → Minimum α
  | (s, some true) => s.outcome true
  | (s, some false) => next s
  | (s, none) => s.outcome (decide (maxDamping ≤ s.damping))

/-- A round whose Jacobian is complete has used all of its points, and counts them. -/
theorem descend_succ (fuel : Nat) (s : State α) :
    descend propose resid box tolerance budget (fuel + 1) s =
      if budget ≤ s.trail.count then s.outcome false
      else if s.value == 0 then s.outcome true
      else
        match evaluateAll resid (forwardPoints s.point) with
        | (used, none) => { s with trail := s.trail.glance used }.outcome false
        | (_, some values) =>
            conclude (descend propose resid box tolerance budget fuel)
              (tryDampings propose resid box tolerance budget values maxTrials
                s.differentiated) := by
  rw [descend]
  split_ifs
  · rfl
  · rfl
  · cases heval : evaluateAll resid (forwardPoints s.point) with
    | mk used values =>
        cases values with
        | none => rfl
        | some values =>
            obtain rfl := evaluateAll_fst_of_some heval
            simp only
            rw [glance_forwardPoints]
            rfl

end Evaluations

section Ladder

variable {propose : Proposal Float} {resid : List Float → Option (List Float)} {box : Box Float}
  {tolerance : Float} {budget : Nat} {values : List (List Float)}

/-- The damping after some trials that start from its floor. -/
def rung : Nat → α
  | 0 => 1e-12
  | k + 1 => rung k * 10

/-- As many trials have raised the damping this far. -/
structure Climbed (k : Nat) (damping : α) : Prop where
  nonneg : (0 : α) ≤ rung k
  rung_le : rung k ≤ damping

theorem climbed_of_floor {damping : Float} (h : 1e-12 ≤ damping) : Climbed 0 damping :=
  ⟨by decide +kernel, h⟩

theorem maxDamping_le_rung : (maxDamping : Float) ≤ rung maxTrials := by
  decide +kernel

theorem Climbed.raise {k : Nat} {damping : Float} (h : Climbed k damping)
    (hlt : damping < maxDamping) : Climbed (k + 1) (damping * 10) := by
  have hzero : Float.isFinite 0 = true := rfl
  have hmax : Float.isFinite maxDamping = true := by decide +kernel
  have hten : Float.isFinite 10 = true := by decide +kernel
  have hpos : (0 : Float) ≤ 10 := by decide +kernel
  have hle := Scalar.Ordered.le_of_lt hlt
  have hrung : (rung k : Float).isFinite = true :=
    Scalar.Monotone.isFinite_of_between hzero hmax h.nonneg
      (Scalar.Ordered.le_trans h.rung_le hle)
  have hdamping : damping.isFinite = true :=
    Scalar.Monotone.isFinite_of_between hrung hmax h.rung_le hle
  have hmul := Double.isRounded_mul hrung hten
  have hvalue : 0 ≤ Double.value 10 := (Double.nonneg_iff.mp hpos).2
  refine ⟨hmul.nonneg (mul_nonneg (Double.nonneg_iff.mp h.nonneg).2 hvalue), ?_⟩
  exact hmul.le (Double.isRounded_mul hdamping hten)
    (mul_le_mul_of_nonneg_right (Double.value_le_of_le h.rung_le) hvalue)

/-- The trials of a round come to an end before they run out. -/
theorem tries_tryDampings {fuel k : Nat} {s : State Float} (hfuel : k + fuel = maxTrials)
    (h : Climbed k s.damping) :
    Tries propose resid box tolerance budget values s
      (tryDampings propose resid box tolerance budget values fuel s) := by
  induction fuel generalizing k s with
  | zero =>
      obtain rfl : k = maxTrials := hfuel
      refine .ended fun hopen => ?_
      exact Scalar.Ordered.not_lt_of_le (Scalar.Ordered.le_trans maxDamping_le_rung h.rung_le)
        hopen.1
  | succ fuel ih =>
      have hnext : k + 1 + fuel = maxTrials := by omega
      unfold tryDampings
      split_ifs with hopen
      · have hraised := h.raise hopen.1
        split
        next hstep => exact .unsolved hopen hstep (ih hnext hraised)
        next step hstep =>
          simp only
          split
          next hr =>
            exact .uphill hopen hstep (fun r hr' => nomatch hr.symm.trans hr') (ih hnext hraised)
          next r hr =>
            split_ifs with hlt
            · exact .downhill hopen hstep hr hlt
            · refine .uphill hopen hstep (fun r' hr' => ?_) (ih hnext hraised)
              obtain rfl : r = r' := Option.some.inj (hr.symm.trans hr')
              exact hlt
      · exact .ended hopen

/-- A step that went downhill leaves the damping at its floor or above. -/
theorem Tries.floor_le {s : State Float} {o : State Float × Option Bool}
    (h : Tries propose resid box tolerance budget values s o) (hmet : o.2 ≠ none) :
    1e-12 ≤ o.1.damping := by
  induction h with
  | ended _ => exact absurd rfl hmet
  | unsolved _ _ _ ih => exact ih hmet
  | uphill _ _ _ _ ih => exact ih hmet
  | downhill _ _ _ _ => exact Scalar.le_larger (by decide +kernel) _

/-- The rounds of a search come to an end before they run out. -/
theorem runs_descend {fuel : Nat} {s : State Float} (hfloor : 1e-12 ≤ s.damping)
    (hfuel : budget ≤ s.trail.count + fuel) :
    ∃ accepted, Runs propose resid box tolerance budget s accepted
      (descend propose resid box tolerance budget fuel s) := by
  induction fuel generalizing s with
  | zero => exact ⟨[], .spent hfuel⟩
  | succ fuel ih =>
      rw [descend_succ]
      split_ifs with hbudget hzero
      · exact ⟨[], .spent hbudget⟩
      · exact ⟨[], .exact (Nat.lt_of_not_le hbudget) hzero⟩
      · have hcount := Nat.lt_of_not_le hbudget
        have hvalue : (s.value == 0) = false := Bool.eq_false_iff.mpr hzero
        cases heval : evaluateAll resid (forwardPoints s.point) with
        | mk used values =>
          cases values with
          | none => exact ⟨[], .blind hcount hvalue heval⟩
          | some values =>
              obtain rfl := evaluateAll_fst_of_some heval
              have htries : Tries propose resid box tolerance budget values s.differentiated
                  (tryDampings propose resid box tolerance budget values maxTrials
                    s.differentiated) :=
                tries_tryDampings (Nat.zero_add maxTrials) (climbed_of_floor hfloor)
              simp only
              generalize tryDampings propose resid box tolerance budget values maxTrials
                s.differentiated = o at htries
              rcases o with ⟨s', _ | _ | _⟩
              · exact ⟨[], .stuck hcount hvalue heval htries⟩
              · have hcounted : s.trail.count < s'.trail.count :=
                  Nat.lt_of_le_of_lt (Nat.le_add_right _ _) (htries.count_lt nofun)
                have hleft : budget ≤ s'.trail.count + fuel := by omega
                obtain ⟨accepted, hruns⟩ := ih (htries.floor_le nofun) hleft
                exact ⟨s' :: accepted, .next hcount hvalue heval htries hruns⟩
              · exact ⟨[s'], .settled hcount hvalue heval htries⟩

end Ladder

end ParameterScan.DampedLeastSquares
