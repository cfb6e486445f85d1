import ParameterScan.Scalar

/-!
# Where a profile crosses a level

A profile is a function that may fail. From a starting value with a lower profile, steps of double
length each are taken in one direction until the profile has reached the level; the bracket is then
halved until it is narrow. The limit of the parameter ends the walk: when the profile is below the
level there, there is no crossing.
-/
namespace ParameterScan.Crossing

variable {α ε : Type} [Scalar α]

/-- The point at an offset in a direction, not beyond the limit. -/
def candidate (start direction step limit : α) : α :=
  let x := start + direction * step
  if 0 ≤ (x - limit) * direction then limit else x

/-- Walks outward from `inner` until the level is reached. Returns the last point below it and the
first one that is not. -/
def expand (profile : α → Except ε α) (start direction limit level : α) :
    (fuel : Nat) → (inner step : α) → Except ε (Option (α × α))
  | 0, _, _ => .ok none
  | fuel + 1, inner, step => do
      let x := candidate start direction step limit
      let y ← profile x
      if level ≤ y then return some (inner, x)
      else if x == limit then return none
      else expand profile start direction limit level fuel x (step * 2)

/-- Halves a bracket until its ends are within the tolerance. -/
def bisect (profile : α → Except ε α) (level tolerance : α) :
    (fuel : Nat) → (inner outer : α) → Except ε (α × α)
  | 0, inner, outer => .ok (inner, outer)
  | fuel + 1, inner, outer =>
      if Scalar.abs (outer - inner) ≤ tolerance then .ok (inner, outer)
      else do
        let middle := 0.5 * (inner + outer)
        let y ← profile middle
        if level ≤ y then bisect profile level tolerance fuel inner middle
        else bisect profile level tolerance fuel middle outer

def maxExpansions : Nat := 60

def maxBisections : Nat := 100

/-- The width at which a bracket around a crossing near `start` is narrow. -/
def tolerance (start : α) : α := 1e-8 * (1 + Scalar.abs start)

/-- The offset of the crossing from the start in a direction of `1` or `-1`. -/
def offset? (profile : α → Except ε α) (start direction step limit level : α) :
    Except ε (Option α) := do
  match ← expand profile start direction limit level maxExpansions start step with
  | none => return none
  | some (inner, outer) =>
      let (inner, outer) ←
        bisect profile level (tolerance start) maxBisections inner outer
      return some (0.5 * (inner + outer) - start)

end ParameterScan.Crossing
