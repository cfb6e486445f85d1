import ParameterScan.Linear.Mat

/-!
# Finite differences

First derivatives are forward differences, second derivatives central ones. The steps grow with the
magnitude of each coordinate, so that parameters in different units are perturbed alike. A function
that has no value at one of the points makes the whole matrix fail.

The points are named by themselves: `ahead` in each coordinate for a Jacobian, and for a Hessian the
point itself, `beside` it in one coordinate and the four `corner` points of each pair.
-/
namespace ParameterScan.Derivative

variable {α : Type} [Scalar α]

/-- A step relative to the magnitude of a coordinate, which counts as one at least. -/
def relativeStep (relative x : α) : α :=
  relative * Scalar.larger (Scalar.abs x) 1

def forwardStep (x : α) : α := relativeStep 1e-7 x

def centralStep (x : α) : α := relativeStep 1e-4 x

def ahead (x : List α) (j : Fin x.length) : List α :=
  x.set j (x[j] + forwardStep x[j])

def forwardPoints (x : List α) : List (List α) :=
  (List.finRange x.length).map (ahead x)

/-- The matrix of forward differences from the values at `x` and at the points ahead of it. -/
def forwardDifferences (x f0 : List α) (values : List (List α)) : Mat α f0.length x.length :=
  Mat.ofFn fun i j => ((values.getD j []).getD i 0 - f0[i]) / forwardStep x[j]

/-- The Jacobian at `x` of a function with the value `f0` there. -/
def jacobian? (f : List α → Option (List α)) (x f0 : List α) :
    Option (Mat α f0.length x.length) :=
  ((forwardPoints x).mapM f).map (forwardDifferences x f0)

def stepOf (x : List α) (i : Fin x.length) : α := centralStep x[i]

section Central

variable (x : List α) (steps : Fin x.length → α)

/-- The point one step above or below in one coordinate. -/
def beside (i : Fin x.length) (above : Bool) : List α :=
  x.set i (if above then x[i] + steps i else x[i] - steps i)

def corner (i j : Fin x.length) (aboveI aboveJ : Bool) : List α :=
  (x.set i (if aboveI then x[i] + steps i else x[i] - steps i)).set j
    (if aboveJ then x[j] + steps j else x[j] - steps j)

variable (f : List α → Option α)

def curvature? (f0 : α) (i : Fin x.length) : Option α := do
  let up ← f (beside x steps i true)
  let down ← f (beside x steps i false)
  return (up - 2 * f0 + down) / (steps i * steps i)

def mixed? (i j : Fin x.length) : Option α := do
  let pp ← f (corner x steps i j true true)
  let pm ← f (corner x steps i j true false)
  let mp ← f (corner x steps i j false true)
  let mm ← f (corner x steps i j false false)
  return (pp - pm - mp + mm) / (4 * steps i * steps j)

/-- The Hessian at `x` by the given steps. Mixed differences are taken once for each pair. -/
def hessianWith? : Option (Mat α x.length x.length) := do
  let f0 ← f x
  let diagonal ← (List.finRange x.length).mapM (curvature? x steps f f0)
  let upper ← (List.finRange x.length).mapM fun i =>
    (List.finRange x.length).mapM fun j => if i < j then mixed? x steps f i j else some 0
  return Mat.ofFn fun i j =>
    if i = j then diagonal.getD i 0
    else if i < j then (upper.getD i []).getD j 0 else (upper.getD j []).getD i 0

end Central

/-- The Hessian at `x` by steps that grow with the coordinates. -/
def hessian? (f : List α → Option α) (x : List α) : Option (Mat α x.length x.length) :=
  hessianWith? x (stepOf x) f

/-- The standard deviations on the diagonal of a covariance matrix. A variance that is not positive
and finite has none. -/
def deviations {m n : Nat} (cov : Mat α m n) : List (Option α) :=
  cov.diagonal.map fun v =>
    if decide (0 < v) && Scalar.isFinite v then some (Scalar.sqrt v) else none

end ParameterScan.Derivative
