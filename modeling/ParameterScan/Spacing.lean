import ParameterScan.Scalar

/-!
# Evenly spaced points

Points by count (`linspace`) include both ends, the last one exactly. Points by step (`stepped`)
start at the lower end and never pass the upper one. Half a single-precision unit in the last place
of slack, measured in steps, keeps a final point that lands on the upper end up to rounding.
-/
namespace ParameterScan.Spacing

variable {α : Type} [Scalar α]

/-- The point `i` steps above the lower end. -/
def stepPoint (lower step : α) (i : Nat) : α :=
  lower + step * Scalar.ofNat i

/-- The step between `count` points from `lower` to `upper`. -/
def evenStep (lower upper : α) (count : Nat) : α :=
  (upper - lower) / (Scalar.ofNat count - 1)

/-- As many evenly spaced points from `lower` to `upper` as asked for. -/
def linspace (lower upper : α) : Nat → List α
  | 0 => []
  | 1 => [lower]
  | n + 2 => (List.range (n + 1)).map (stepPoint lower (evenStep lower upper (n + 2))) ++ [upper]

/-- The slack, in steps, by which a point may pass the upper end before it is moved back. -/
def slack : α := Scalar.halfPow 23

/-- How many points a step makes from `lower` to `upper`, as a number that may be infinite. -/
def stepCount (lower upper step : α) : α :=
  Scalar.larger (Scalar.floor ((upper - lower) / step + slack)) 0 + 1

/-- The points `lower`, `lower + step` and so on up to `upper`. -/
def stepped (lower upper step : α) : List α :=
  (List.range (Scalar.toNat (stepCount lower upper step))).map fun i =>
    Scalar.smaller (stepPoint lower step i) upper

end ParameterScan.Spacing
