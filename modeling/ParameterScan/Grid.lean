import ParameterScan.Spacing

/-!
# Evaluation grids

An axis holds its coordinates, in powers of ten when it is logarithmic, and the linear range that
they stand for. A grid is one axis for each scanned parameter. Its points are numbered with the
first axis running fastest: point `k` has position `k / s % n` on an axis of `n` coordinates, where
`s` is the product of the sizes of the axes before it.

The mesh has a point for every combination of coordinates. The size of a grid is counted in 64 bits
and wraps around, so that a grid of `2 ^ 64` combinations or more answers with fewer points than its
mesh has. A scan is taken to go over the mesh: all its points are in memory before the first one is
evaluated, and no memory holds so many.
-/
namespace ParameterScan

/-- How many points an axis has, or how far apart they are. -/
inductive Layout (α : Type) where
  | count (n : Nat)
  | spacing (step : α)
  deriving Repr, DecidableEq

structure Axis (α : Type) where
  lower : α
  upper : α
  log : Bool
  /-- The coordinates, in powers of ten on a logarithmic axis. -/
  values : Array α
  deriving Repr, DecidableEq

namespace Axis

variable {α : Type} [Scalar α]

def size (a : Axis α) : Nat := a.values.size

/-- The parameter value for a coordinate. On a logarithmic axis it is moved into the range, so that
rounding never leaves it. -/
def toLinear (a : Axis α) (v : α) : α :=
  if a.log then Scalar.clamp a.lower a.upper (Scalar.tenTo v) else v

def coordinate (a : Axis α) (i : Nat) : α := a.values.getD i 0

def linearValues (a : Axis α) : List α := a.values.toList.map a.toLinear

def points (lower upper : α) : Layout α → List α
  | .count n => Spacing.linspace lower upper n
  | .spacing step => Spacing.stepped lower upper step

/-- The axis of a layout over a range. A logarithmic axis has as many points as the linear one,
evenly spaced in powers of ten. -/
def make (lower upper : α) (layout : Layout α) (log : Bool) : Axis α :=
  let linear := points lower upper layout
  let values :=
    if log then Spacing.linspace (Scalar.log10 lower) (Scalar.log10 upper) linear.length
    else linear
  ⟨lower, upper, log, values.toArray⟩

end Axis

/-- One axis for each of `n` parameters. -/
structure Grid (α : Type) (n : Nat) where
  axes : Vector (Axis α) n
  deriving DecidableEq

namespace Grid

variable {α : Type} [Scalar α] {n : Nat}

/-- The number of combinations of coordinates on the given axes. -/
def volume (axes : List (Axis α)) : Nat := axes.foldr (fun a k => a.size * k) 1

def meshSize (g : Grid α n) : Nat := volume g.axes.toList

/-- The numbers below this one are those of a 64-bit word. -/
def wordRange : Nat := UInt64.size

/-- The product of the sizes of the axes as a word holds it. -/
def size (g : Grid α n) : Nat := g.meshSize % wordRange

/-- How many points pass before the position on an axis changes. -/
def stride (g : Grid α n) (a : Fin n) : Nat := volume (g.axes.toList.take a)

/-- The position on an axis of a point by its number. -/
def position (g : Grid α n) (k : Nat) (a : Fin n) : Nat :=
  k / g.stride a % (g.axes.get a).size

def point (g : Grid α n) (k : Nat) : Vector α n :=
  Vector.ofFn fun a => (g.axes.get a).coordinate (g.position k a)

/-- All combinations of coordinates, in the order of their numbers. -/
def mesh (g : Grid α n) : List (Vector α n) := (List.range g.meshSize).map g.point

def points (g : Grid α n) : List (Vector α n) := (List.range g.size).map g.point

def toLinear (g : Grid α n) (p : Vector α n) : Vector α n :=
  Vector.ofFn fun a => (g.axes.get a).toLinear (p.get a)

/-- The parameter values of one axis over the mesh. -/
def meshColumn (g : Grid α n) (a : Fin n) : List α :=
  g.mesh.map fun p => (g.axes.get a).toLinear (p.get a)

/-- The parameter values of one axis at all points. -/
def linearColumn (g : Grid α n) (a : Fin n) : List α :=
  g.points.map fun p => (g.axes.get a).toLinear (p.get a)

end Grid

end ParameterScan
