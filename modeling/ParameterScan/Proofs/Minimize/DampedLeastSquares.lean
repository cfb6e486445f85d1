import Mathlib.Tactic.SplitIfs
import ParameterScan.Minimize.DampedLeastSquares
import ParameterScan.Proofs.Minimize.Box

/-!
# What a damped search keeps

The current point keeps what the box retains, it has residuals, and the value is their squared
length. A step is taken only if the value falls, so the value is the one at the start or below it.
Both are said because the value at the start may be a `NaN`, which is below nothing and stays.

A proposed step matters only by its number of coordinates. The points of the Jacobian may lie
outside the box; no search ends there.
-/
namespace ParameterScan

variable {α : Type} [Scalar α] {resid : List α → Option (List α)} {box : Box α}
  {n : Nat} {inside : List α → Prop} {start : α}

/-- An outcome at a point that was kept and has residuals, at their squared length. -/
structure Minimum.Fitted (resid : List α → Option (List α)) (inside : List α → Prop) (start : α)
    (m : Minimum α) : Prop where
  contains : inside m.point
  value_eq : ∃ r, resid m.point = some r ∧ m.value = Scalar.sumSq r
  descended : m.value = start ∨ m.value < start

namespace DampedLeastSquares

structure State.Sound (resid : List α → Option (List α)) (inside : List α → Prop) (start : α)
    (s : State α) : Prop where
  contains : inside s.point
  resid_eq : resid s.point = some s.resid
  value_eq : s.value = Scalar.sumSq s.resid
  descended : s.value = start ∨ s.value < start

/-- Steps have one coordinate for each of the point. -/
def Proposal.Even (propose : Proposal α) : Prop :=
  ∀ x r ahead damping step, propose x r ahead damping = some step → step.length = x.length

theorem even_dampedProposal : (dampedProposal : Proposal α).Even := by
  intro x r ahead damping step h
  obtain ⟨v, -, rfl⟩ := Option.map_eq_some_iff.mp h
  exact v.length_toList

theorem State.Sound.fitted {s : State α} (h : s.Sound resid inside start) (converged : Bool) :
    (s.outcome converged).Fitted resid inside start :=
  ⟨h.contains, ⟨s.resid, h.resid_eq, h.value_eq⟩, h.descended⟩

theorem State.Sound.update {s : State α} (h : s.Sound resid inside start) (damping : α)
    (trail : Trail α) : { s with damping, trail }.Sound resid inside start :=
  ⟨h.contains, h.resid_eq, h.value_eq, h.descended⟩

variable [Scalar.Ordered α] {propose : Proposal α}

open Scalar Scalar.Ordered

theorem lt_of_descended {a b : α} (h : b = start ∨ b < start) (hlt : a < b) : a < start := by
  rcases h with rfl | h
  · exact hlt
  · exact lt_of_lt_of_le hlt (le_of_lt h)

theorem sound_tryDampings (hpropose : propose.Even) (hbox : box.Retains n inside) (tolerance : α)
    (budget : Nat) (ahead : List (List α)) (fuel : Nat) {s : State α}
    (h : s.Sound resid inside start) :
    (tryDampings propose resid box tolerance budget ahead fuel s).1.Sound resid inside start := by
  induction fuel generalizing s with
  | zero => exact h
  | succ fuel ih =>
      unfold tryDampings
      split_ifs with htry
      · split
        next => exact ih (h.update _ s.trail)
        next step hstep =>
          have hinside : inside (box.clamp (List.zipWith (· + ·) s.point step)) := by
            refine hbox.clamp ?_
            rw [List.length_zipWith, hpropose _ _ _ _ _ hstep, Nat.min_self]
            exact hbox.length_eq h.contains
          simp only
          split
          next => exact ih (h.update _ _)
          next r hr =>
            split_ifs with hlt
            · exact ⟨hinside, hr, rfl, .inr (lt_of_descended h.descended hlt)⟩
            · exact ih (h.update _ _)
      · exact h

theorem fitted_descend (hpropose : propose.Even) (hbox : box.Retains n inside) (tolerance : α)
    (budget fuel : Nat) {s : State α} (h : s.Sound resid inside start) :
    (descend propose resid box tolerance budget fuel s).Fitted resid inside start := by
  induction fuel generalizing s with
  | zero => exact h.fitted false
  | succ fuel ih =>
      unfold descend
      split_ifs with hbudget hzero
      · exact h.fitted false
      · exact h.fitted true
      · split
        next => exact (h.update s.damping _).fitted false
        next used ahead _ =>
          have hcounted := sound_tryDampings hpropose hbox tolerance budget ahead maxTrials
            (h.update s.damping
              { (s.trail.glance used) with count := s.trail.count + s.point.length })
          simp only
          split
          next s' hs' =>
            rw [hs'] at hcounted
            exact hcounted.fitted true
          next s' hs' =>
            rw [hs'] at hcounted
            exact ih hcounted
          next s' hs' =>
            rw [hs'] at hcounted
            exact hcounted.fitted _

theorem fitted_searchWith (hpropose : propose.Even) (hbox : box.Retains n inside) {x0 : List α}
    (hlength : x0.length = n) (cfg : SearchConfig α) {m : Minimum α}
    (h : searchWith propose resid x0 box cfg = some m) :
    ∃ r, resid (box.clamp x0) = some r ∧ m.Fitted resid inside (sumSq r) := by
  obtain ⟨r, hr, rfl⟩ := Option.map_eq_some_iff.mp h
  exact ⟨r, hr, fitted_descend hpropose hbox _ _ _
    ⟨hbox.clamp hlength, hr, rfl, .inl rfl⟩⟩

end DampedLeastSquares

end ParameterScan
