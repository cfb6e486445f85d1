import ParameterScan.Linear.Mat

/-!
# Reduction to bidiagonal form

A matrix is brought to bidiagonal form by reflections, one for each column from the left and one for
each row from the right. A tall matrix, with at least as many rows as columns, becomes upper
bidiagonal: its first column is cleared before its first row (`ofTall`). A wide one becomes lower
bidiagonal: its first row is cleared before its first column (`ofWide`). Both are followed by the
same reduction of the matrix without its first row and column, so the orthogonal factors are built
on the way back: the reflection is applied to the factor of the smaller matrix, bordered by the
first unit vector.
-/
namespace ParameterScan.Linear

variable {α : Type} [Scalar α]

/-- The reflection that takes a vector to a multiple of the first unit vector. -/
structure Reflector (α : Type) where
  axis : List α
  /-- The first entry of the reflected vector; the others are zero. -/
  image : α
  /-- A zero vector needs no reflection. -/
  active : Bool

namespace Reflector

def ofVector : List α → Reflector α
  | [] => ⟨[], 0, false⟩
  | x :: xs =>
      let square := normSq (x :: xs)
      let length := Scalar.sqrt square
      let signed := Scalar.sign x * length
      let factor := (square + Scalar.abs x * length) * 2
      if factor == 0 then ⟨(x + signed) :: xs, signed, false⟩
      else
        let root := Scalar.sqrt factor
        let once := ((x + signed) :: xs).map (· / root)
        let unit := norm once
        ⟨once.map (· / unit), -signed, true⟩

/-- The sign that the reflected vectors are multiplied with. -/
def orientation (r : Reflector α) : α := Scalar.sign r.image

def combine (a : α) (axis : List α) (b : α) (v : List α) : List α :=
  List.zipWith (fun x y => a * x + b * y) axis v

/-- The reflected and oriented vector. -/
def apply (r : Reflector α) (v : List α) : List α :=
  if r.active then
    combine (dot r.axis v * (r.orientation * (-2))) r.axis r.orientation v
  else v

/-- The same for a vector that is a row of a matrix. -/
def applyRow (r : Reflector α) (row : List α) : List α :=
  if r.active then
    let along := dotFrom 0 row r.axis
    List.zipWith (fun a y => r.orientation * (-2) * a * along + r.orientation * y) r.axis row
  else row

/-- Each row of a matrix given by its columns, reflected. -/
def applyRows (r : Reflector α) (columns : List (List α)) : List (List α) :=
  if r.active then
    let zero := (columns.headD []).map fun _ => (0 : α)
    let along := (columns.zip r.axis).foldl
      (fun total (column, a) => List.zipWith (fun x t => x * a + t) column total) zero
    List.zipWith (fun a column => combine (r.orientation * (-2) * a) along r.orientation column)
      r.axis columns
  else columns

end Reflector

/-- A bidiagonal matrix and its orthogonal factors, the left one by columns, the right one by the
rows of its transpose. The entries beside the diagonal stand above it or below it. -/
structure Bidiagonal (α : Type) where
  diagonal : List α
  beside : List α
  left : List (List α)
  right : List (List α)

namespace Bidiagonal

/-- The first unit vector with the given number of entries. -/
def firstUnit (n : Nat) : List α :=
  match n with
  | 0 => []
  | n + 1 => 1 :: List.replicate n 0

/-- A factor with one more row and column in front, those of the first unit vector. -/
def border (size : Nat) (vectors : List (List α)) : List (List α) :=
  firstUnit size :: vectors.map (0 :: ·)

/-- Reduces a tall matrix given by its columns. The first argument is their number. -/
def ofTall : (fuel : Nat) → (rows : Nat) → List (List α) → Bidiagonal α
  | fuel + 1, rows, c :: cs =>
      let fromLeft := Reflector.ofVector c
      let cs := cs.map fromLeft.apply
      let fromRight := Reflector.ofVector (cs.map fun column => column.headD 0)
      let rest := ofTall fuel (rows - 1) (fromRight.applyRows (cs.map List.tail))
      { diagonal := fromLeft.image :: rest.diagonal
        beside := if cs.isEmpty then [] else fromRight.image :: rest.beside
        left := (border rows rest.left).map fromLeft.apply
        right := border (cs.length + 1) (rest.right.map fromRight.applyRow) }
  | _, _, _ => ⟨[], [], [], []⟩

/-- Reduces a wide matrix given by its columns. The first argument is the number of rows. -/
def ofWide : (rows : Nat) → List (List α) → Bidiagonal α
  | rows + 1, columns =>
      let fromRight := Reflector.ofVector (columns.map fun column => column.headD 0)
      let below := fromRight.applyRows (columns.map List.tail)
      let fromLeft := Reflector.ofVector (below.headD [])
      let rest := ofWide rows (below.tail.map fromLeft.apply)
      { diagonal := fromRight.image :: rest.diagonal
        beside := if rows = 0 then [] else fromLeft.image :: rest.beside
        left := border (rows + 1) (rest.left.map fromLeft.apply)
        right := (border columns.length rest.right).map fromRight.applyRow }
  | 0, _ => ⟨[], [], [], []⟩

/-- The form of the transposed matrix. -/
def transpose (b : Bidiagonal α) : Bidiagonal α :=
  { b with left := b.right, right := b.left }

end Bidiagonal

end ParameterScan.Linear
