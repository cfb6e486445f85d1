import ParameterScan.Derivative
import ParameterScan.Linear.LeastSquares
import ParameterScan.Minimize.Search

/-!
# Damped least squares

Minimises the squared length of a residual vector. Each round takes the Jacobian at the current
point and tries steps of growing damping until one of them goes downhill; the damping is then
relaxed. The trial points are moved into the box, the points of the Jacobian are not. Where no
damping helps, the point is stationary.

How a step is proposed from the Jacobian is an argument of `searchWith`. The residuals may be
missing at a point; at the start this means that there is no result.
-/
namespace ParameterScan.DampedLeastSquares

variable {α : Type} [Scalar α]

/-- Proposes a step from the point, the residuals there, the residuals at the points ahead in each
coordinate, and the damping. -/
abbrev Proposal (α : Type) := (x r : List α) → (ahead : List (List α)) → (damping : α) →
  Option (List α)

/-- The damped step of the forward-difference Jacobian. -/
def dampedProposal : Proposal α := fun x r ahead damping =>
  (Linear.dampedStep (Derivative.forwardDifferences x r ahead) ⟨r.toArray, rfl⟩ damping).map
    Vector.toList

/-- The current point of a search, its residuals and their squared length, and the damping. -/
structure State (α : Type) where
  point : List α
  resid : List α
  value : α
  damping : α
  trail : Trail α

def State.outcome (s : State α) (converged : Bool) : Minimum α :=
  ⟨s.point, s.value, converged, s.trail⟩

/-- Evaluates at the given points until one has no value. Returns the points that were used. -/
def evaluateAll (resid : List α → Option (List α)) :
    List (List α) → List (List α) × Option (List (List α))
  | [] => ([], some [])
  | x :: xs =>
      match resid x with
      | none => ([x], none)
      | some r =>
          let (used, rs) := evaluateAll resid xs
          (x :: used, rs.map (r :: ·))

/-- The damping at which a search gives up. -/
def maxDamping : α := 1e12

/-- Tries steps of growing damping. The second component says whether a step went downhill, and then
whether it met the tolerance. -/
def tryDampings (propose : Proposal α) (resid : List α → Option (List α)) (box : Box α)
    (tolerance : α) (budget : Nat) (ahead : List (List α)) :
    (fuel : Nat) → State α → State α × Option Bool
  | 0, s => (s, none)
  | fuel + 1, s =>
      if s.damping < maxDamping ∧ s.trail.count < budget then
        match propose s.point s.resid ahead s.damping with
        | none =>
            tryDampings propose resid box tolerance budget ahead fuel
              { s with damping := s.damping * 10 }
        | some step =>
            let x := box.clamp (List.zipWith (· + ·) s.point step)
            let trail := s.trail.visit x
            let raised := { s with damping := s.damping * 10, trail }
            match resid x with
            | none => tryDampings propose resid box tolerance budget ahead fuel raised
            | some r =>
                if Scalar.sumSq r < s.value then
                  (⟨x, r, Scalar.sumSq r, Scalar.larger (s.damping * 0.1) 1e-12, trail⟩,
                    some (closeTo tolerance s.value (Scalar.sumSq r)))
                else tryDampings propose resid box tolerance budget ahead fuel raised
      else (s, none)

/-- Enough trials to raise the damping from its floor to where a search gives up. -/
def maxTrials : Nat := 64

/-- Rounds of a Jacobian and a step, until the search converges or the budget is used up. Each round
but the last makes an evaluation, so a fuel of the budget is enough. -/
def descend (propose : Proposal α) (resid : List α → Option (List α)) (box : Box α)
    (tolerance : α) (budget : Nat) : (fuel : Nat) → State α → Minimum α
  | 0, s => s.outcome false
  | fuel + 1, s =>
      if budget ≤ s.trail.count then s.outcome false
      else if s.value == 0 then s.outcome true
      else
        match evaluateAll resid (Derivative.forwardPoints s.point) with
        | (used, none) => { s with trail := s.trail.glance used }.outcome false
        | (used, some ahead) =>
            let counted := { (s.trail.glance used) with count := s.trail.count + s.point.length }
            match tryDampings propose resid box tolerance budget ahead maxTrials
                { s with trail := counted } with
            | (s, some true) => s.outcome true
            | (s, some false) => descend propose resid box tolerance budget fuel s
            | (s, none) => s.outcome (decide (maxDamping ≤ s.damping))

/-- The search with a given way to propose steps. There is no result when the start has no
residuals. -/
def searchWith (propose : Proposal α) (resid : List α → Option (List α)) (x0 : List α)
    (box : Box α) (cfg : SearchConfig α) : Option (Minimum α) :=
  let budget := cfg.budgetFor x0.length 200
  let start := box.clamp x0
  (resid start).map fun r =>
    descend propose resid box cfg.tolerance budget budget
      ⟨start, r, Scalar.sumSq r, 1e-3, Trail.empty.visit start⟩

def search (resid : List α → Option (List α)) (x0 : List α) (box : Box α)
    (cfg : SearchConfig α) : Option (Minimum α) :=
  searchWith dampedProposal resid x0 box cfg

end ParameterScan.DampedLeastSquares
