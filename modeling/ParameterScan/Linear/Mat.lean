import ParameterScan.Scalar

/-!
# Matrices and vectors

A matrix carries its shape in its type and is stored by rows. The file holds access and the sums
that the decompositions are made of. The inner product gathers its terms in eight running sums
while at least eight terms are left, and the others from left to right; this fixes the order of
rounding and says nothing about the exact value.
-/
namespace ParameterScan

/-- A matrix of `m` rows and `n` columns. -/
structure Mat (α : Type) (m n : Nat) where
  rows : Vector (Vector α n) m
  deriving DecidableEq

namespace Mat

variable {α : Type} {m n : Nat}

def ofFn (f : Fin m → Fin n → α) : Mat α m n :=
  ⟨Vector.ofFn fun i => Vector.ofFn fun j => f i j⟩

def entry (a : Mat α m n) (i : Fin m) (j : Fin n) : α := a.rows[i][j]

def transpose (a : Mat α m n) : Mat α n m := ofFn fun i j => a.entry j i

def map {β : Type} (f : α → β) (a : Mat α m n) : Mat β m n := ofFn fun i j => f (a.entry i j)

def toLists (a : Mat α m n) : List (List α) := a.rows.toList.map Vector.toList

def column (a : Mat α m n) (j : Fin n) : List α := a.rows.toList.map fun row => row[j]

def columns (a : Mat α m n) : List (List α) := (List.finRange n).map a.column

/-- The entries in the first row and column, the second row and column, and so on. -/
def diagonal (a : Mat α m n) : List α :=
  (List.finRange (min m n)).map fun i =>
    a.entry (i.castLE (Nat.min_le_left m n)) (i.castLE (Nat.min_le_right m n))

/-- The matrix with the given rows, when all have `n` entries. -/
def ofLists? (m n : Nat) (rows : List (List α)) : Option (Mat α m n) := do
  let rows ← rows.mapM fun row =>
    if h : row.toArray.size = n then some (⟨row.toArray, h⟩ : Vector α n) else none
  if h : rows.toArray.size = m then return ⟨rows.toArray, h⟩ else none

end Mat

namespace Linear

variable {α : Type} [Scalar α]

/-- Eight running sums, combined two by two at the end. -/
structure Lanes (α : Type) where
  a : α
  b : α
  c : α
  d : α
  e : α
  f : α
  g : α
  h : α

def Lanes.zero : Lanes α := ⟨0, 0, 0, 0, 0, 0, 0, 0⟩

def Lanes.total (s : Lanes α) : α :=
  0 + (s.a + s.e) + (s.b + s.f) + (s.c + s.g) + (s.d + s.h)

/-- Adds the products of two lists to a total, one after the other. -/
def dotFrom (total : α) : List α → List α → α
  | x :: xs, y :: ys => dotFrom (total + x * y) xs ys
  | _, _ => total

/-- Adds eight products at a time to the running sums. -/
def dotLanes (s : Lanes α) : List α → List α → α
  | x0 :: x1 :: x2 :: x3 :: x4 :: x5 :: x6 :: x7 :: xs,
    y0 :: y1 :: y2 :: y3 :: y4 :: y5 :: y6 :: y7 :: ys =>
      dotLanes ⟨s.a + x0 * y0, s.b + x1 * y1, s.c + x2 * y2, s.d + x3 * y3,
        s.e + x4 * y4, s.f + x5 * y5, s.g + x6 * y6, s.h + x7 * y7⟩ xs ys
  | xs, ys => dotFrom s.total xs ys

/-- The inner product of two lists of one length. -/
def dot (xs ys : List α) : α := dotLanes Lanes.zero xs ys

def normSq (xs : List α) : α := dot xs xs

def norm (xs : List α) : α := Scalar.sqrt (normSq xs)

/-- The hypotenuse of a right triangle, corrected for the rounding of the square root. -/
def hypotenuse (x y : α) : α :=
  let a := if Scalar.abs x < Scalar.abs y then Scalar.abs y else Scalar.abs x
  let b := if Scalar.abs x < Scalar.abs y then Scalar.abs x else Scalar.abs y
  if b ≤ a * Scalar.halfPow 54 then a + b
  else
    let h := Scalar.sqrt (a * a + b * b)
    let rest :=
      if h ≤ 2 * b then
        let delta := h - b
        a * (2 * delta - a) + (delta - 2 * (a - b)) * delta
      else
        let delta := h - a
        2 * delta * (a - 2 * b) + ((4 * delta - b) * b + delta * delta)
    h - rest / (2 * h)

end Linear

end ParameterScan
