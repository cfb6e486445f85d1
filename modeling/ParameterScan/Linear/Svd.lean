import ParameterScan.Linear.Bidiagonal

/-!
# Singular values

The singular triples of a matrix: it is the sum of `value · left · rightᵀ` over them, with
orthonormal left and right vectors and values from zero up, largest first. The bidiagonal form is
made diagonal by sweeps of plane rotations with a shift. An entry next to the diagonal is dropped
once it is negligible beside its neighbours, which splits the problem; blocks of two are solved
directly.

The sweeps stop after a fixed number of rounds. A matrix without numbers in it has no triples worth
using, and no statement here says otherwise.
-/
namespace ParameterScan.Linear

variable {α : Type} [Scalar α]

/-- One term of a singular value decomposition. -/
structure SingularTriple (α : Type) where
  value : α
  left : List α
  right : List α

/-- The same term of the transposed matrix. -/
def SingularTriple.transpose (t : SingularTriple α) : SingularTriple α :=
  ⟨t.value, t.right, t.left⟩

/-- A rotation of the plane by its cosine and sine. -/
structure Rotation (α : Type) where
  c : α
  s : α

namespace Rotation

def inverse (r : Rotation α) : Rotation α := ⟨r.c, -r.s⟩

def pair (r : Rotation α) (a b : α) : α × α :=
  (a * r.c - r.s * b, r.s * a + b * r.c)

/-- The rotation that turns `(x, y)` onto the first axis, and the length it has there. -/
def cancelSecond (x y : α) : Option (Rotation α × α) :=
  if y == 0 then none
  else
    let length := Scalar.sqrt (Scalar.abs x * Scalar.abs x + y * y)
    let signed := Scalar.sign x * length
    some (⟨Scalar.abs x / length, -y / signed⟩, signed)

/-- The rotation that turns `(x, y)` onto the second axis, and the length it has there. -/
def cancelFirst (x y : α) : Option (Rotation α × α) :=
  if x == 0 then none
  else
    let length := Scalar.sqrt (Scalar.abs y * Scalar.abs y + x * x)
    some (⟨Scalar.abs y / length, x * Scalar.sign y / length⟩, Scalar.sign y * length)

/-- The rotation with a cosine and a sine in the given proportion, and their signed length. -/
def ofParts (x y : α) : Rotation α × α :=
  let length := Scalar.sqrt (Scalar.abs x * Scalar.abs x + y * y)
  if 0 < length then
    let signed := Scalar.sign x * length
    (⟨Scalar.abs x / length, y / signed⟩, signed)
  else (⟨1, 0⟩, 0)

end Rotation

/-- A bidiagonal matrix on its way to diagonal form. -/
structure Sweep (α : Type) where
  diag : Array α
  off : Array α
  left : Array (List α)
  right : Array (List α)

namespace Sweep

def d (s : Sweep α) (i : Nat) : α := s.diag.getD i 0

def e (s : Sweep α) (i : Nat) : α := s.off.getD i 0

def setD (s : Sweep α) (i : Nat) (x : α) : Sweep α :=
  { s with diag := s.diag.setIfInBounds i x }

def setE (s : Sweep α) (i : Nat) (x : α) : Sweep α :=
  { s with off := s.off.setIfInBounds i x }

/-- Rotates two of a family of vectors. -/
def rotateTwo (r : Rotation α) (i j : Nat) (vs : Array (List α)) : Array (List α) :=
  let a := vs.getD i []
  let b := vs.getD j []
  let first := List.zipWith (fun x y => (r.pair x y).1) a b
  let second := List.zipWith (fun x y => (r.pair x y).2) a b
  (vs.setIfInBounds i first).setIfInBounds j second

def rotateLeft (r : Rotation α) (i j : Nat) (s : Sweep α) : Sweep α :=
  { s with left := rotateTwo r i j s.left }

def rotateRight (r : Rotation α) (i j : Nat) (s : Sweep α) : Sweep α :=
  { s with right := rotateTwo r i j s.right }

/-- Below this fraction of the largest entry a value counts as zero: five units of rounding. -/
def negligible : α := Scalar.halfPow 52 * 5

/-- Clears the entry right of a zero on the diagonal by rotations from the left. The vector `(x, y)`
is what the next rotation acts on. -/
def clearRow (i : Nat) : (fuel k : Nat) → (x y : α) → Sweep α → Sweep α
  | 0, _, _, _, s => s
  | fuel + 1, k, x, y, s =>
      match Rotation.cancelFirst x y with
      | none => s
      | some (r, length) =>
          let s := rotateLeft r i (k + 1) (s.setD (k + 1) length)
          match fuel with
          | 0 => s
          | fuel + 1 =>
              clearRow i (fuel + 1) (k + 1) (-r.s * s.e (k + 1)) (s.d (k + 2))
                (s.setE (k + 1) (s.e (k + 1) * r.c))

/-- Clears the entry above a zero on the diagonal by rotations from the right. -/
def clearColumn (i : Nat) : (k : Nat) → (x y : α) → Sweep α → Sweep α
  | k, x, y, s =>
      match Rotation.cancelSecond x y with
      | none => s
      | some (r, length) =>
          let s := rotateRight r k (i + 1) (s.setD k length)
          match k with
          | 0 => s
          | k + 1 =>
              clearColumn i k (s.d k) (r.s * s.e k) (s.setE k (s.e k * r.c))

/-- A zero at place `m` of the diagonal, not the last of its block: clears what stands beside it. -/
def splitAt (s : Sweep α) (m stop : Nat) : Sweep α :=
  let s := s.setD m 0
  let s := clearRow m (stop - m) m (s.e m) (s.d (m + 1)) (s.setE m 0)
  match m with
  | 0 => s
  | p + 1 => clearColumn p p (s.d p) (s.e p) (s.setE p 0)

/-- The last place of the lowest block that is not diagonal yet, zero when there is none. -/
def lastOpen (s : Sweep α) : (n : Nat) → Sweep α × Nat
  | 0 => (s, 0)
  | m + 1 =>
      if s.e m == 0
          ∨ Scalar.abs (s.e m) ≤ negligible * (Scalar.abs (s.d (m + 1)) + Scalar.abs (s.d m)) then
        lastOpen (s.setE m 0) m
      else if Scalar.abs (s.d m) ≤ negligible then lastOpen (s.splitAt m (m + 1)) m
      else if Scalar.abs (s.d (m + 1)) ≤ negligible then
        let s := s.setD (m + 1) 0
        lastOpen (clearColumn m m (s.d m) (s.e m) (s.setE m 0)) m
      else (s, m + 1)

/-- The first place of the block that ends at `stop`. -/
def firstOpen (s : Sweep α) (stop : Nat) : (start : Nat) → Sweep α × Nat
  | 0 => (s, 0)
  | m + 1 =>
      if Scalar.abs (s.e m) ≤ negligible * (Scalar.abs (s.d (m + 1)) + Scalar.abs (s.d m)) then
        (s.setE m 0, m + 1)
      else if Scalar.abs (s.d m) ≤ negligible then (s.splitAt m stop, m + 1)
      else firstOpen s stop m

/-- The lowest block that is not diagonal yet, from its first place to its last one. -/
def openBlock (s : Sweep α) (stop : Nat) : Sweep α × Nat × Nat :=
  match lastOpen s stop with
  | (s, 0) => (s, 0, 0)
  | (s, stop + 1) =>
      let (s, start) := firstOpen s (stop + 1) stop
      (s, start, stop + 1)

/-- The eigenvalue of a symmetric block of two nearest to its last entry. -/
def shift (tmm tnn tmn : α) : α :=
  let square := tmn * tmn
  if square == 0 then tnn
  else
    let half := (tmm - tnn) * 0.5
    tnn - square / (half + Scalar.sign half * Scalar.sqrt (half * half + square))

/-- Chases a bulge from place `k` down to the end of the block. -/
def chase (start stop : Nat) : (fuel k : Nat) → (x y : α) → Sweep α → Sweep α
  | 0, _, _, _, s => s
  | fuel + 1, k, x, y, s =>
      match Rotation.cancelSecond x y with
      | none => s
      | some (fromRight, length) =>
          let beyond := if k + 1 = stop then 0 else s.e (k + 1)
          let (a0, b0) := fromRight.pair (s.d k) (s.e k)
          let (a1, b1) := fromRight.pair 0 (s.d (k + 1))
          let s := if start < k then s.setE (k - 1) length else s
          let (fromLeft, top) := (Rotation.cancelSecond a0 a1).getD (⟨1, 0⟩, a0)
          let (b0, b1) := fromLeft.pair b0 b1
          let (c0, c1) := fromLeft.pair 0 beyond
          let s := rotateLeft fromLeft k (k + 1) (rotateRight fromRight k (k + 1) s)
          let s := ((s.setD k top).setD (k + 1) b1).setE k b0
          let s := if k + 1 = stop then s else s.setE (k + 1) c1
          chase start stop fuel (k + 1) b0 c0 s

/-- One sweep over a block of three or more. -/
def sweepBlock (s : Sweep α) (start stop : Nat) : Sweep α :=
  let m := stop - 1
  let tmm := s.d m * s.d m + s.e (m - 1) * s.e (m - 1)
  let tmn := s.d m * s.e m
  let tnn := s.d stop * s.d stop + s.e m * s.e m
  chase start stop (stop - start) start
    (s.d start * s.d start - shift tmm tnn tmn) (s.d start * s.e start) s

/-- Makes a block of two diagonal. -/
def solveTwo (s : Sweep α) (start : Nat) : Sweep α :=
  let m11 := s.d start
  let m12 := s.e start
  let m22 := s.d (start + 1)
  let total := hypotenuse (m11 + m22) m12 + hypotenuse (m11 - m22) m12
  let low := m11 * m22 * 2 / total
  let high := 0.5 * total
  let (v, lengthV) := Rotation.ofParts (m11 * m12) (low * low - m11 * m11)
  let low := low * lengthV
  let high := high * lengthV
  let (u, lengthU) := Rotation.ofParts ((m11 * v.c + m12 * v.s) / low) (m22 * v.s / low)
  let s := ((s.setD start (low * lengthU)).setD (start + 1) (high * lengthU)).setE start 0
  rotateRight v.inverse start (start + 1) (rotateLeft u.inverse start (start + 1) s)

/-- Works on the lowest open block until none is left or the rounds are used up. -/
def run : (fuel : Nat) → (start stop : Nat) → Sweep α → Sweep α
  | 0, _, _, s => s
  | fuel + 1, start, stop, s =>
      if start = stop then s
      else
        let (s, last) :=
          if start + 2 ≤ stop then (s.sweepBlock start stop, stop)
          else (s.solveTwo start, stop - 1)
        let (s, start, stop) := s.openBlock last
        run fuel start stop s

/-- The number of rounds after which an unfinished matrix is given up. -/
def maxRounds : Nat := 10000

/-- Makes an upper bidiagonal matrix diagonal. -/
def diagonalize (b : Bidiagonal α) : Sweep α :=
  let s : Sweep α :=
    ⟨(b.diagonal.map Scalar.abs).toArray, (b.beside.map Scalar.abs).toArray,
      b.left.toArray, b.right.toArray⟩
  let (s, start, stop) := s.openBlock (s.diag.size - 1)
  run maxRounds start stop s

/-- The terms of the decomposition, with values from zero up. -/
def triples (s : Sweep α) (scale : α) : List (SingularTriple α) :=
  (List.range s.diag.size).map fun i =>
    let value := s.d i * scale
    let left := s.left.getD i []
    let right := s.right.getD i []
    if value < 0 then ⟨-value, left.map (- ·), right⟩ else ⟨value, left, right⟩

end Sweep

/-- The largest magnitude among the entries. -/
def largestEntry (columns : List (List α)) : α :=
  columns.foldl (fun m c => c.foldl (fun m x => Scalar.larger m (Scalar.abs x)) m) 0

/-- The terms for the columns of a matrix with entries of at most one in magnitude. A lower
bidiagonal form is worked on as its transpose. -/
def scaledTriples (m n : Nat) (columns : List (List α)) (scale : α) : List (SingularTriple α) :=
  if n ≤ m then (Sweep.diagonalize (Bidiagonal.ofTall n m columns)).triples scale
  else
    ((Sweep.diagonalize (Bidiagonal.ofWide m columns).transpose).triples scale).map
      SingularTriple.transpose

/-- The singular triples of a matrix, largest value first. -/
def singularTriples {m n : Nat} (a : Mat α m n) : List (SingularTriple α) :=
  let largest := largestEntry a.columns
  let scaled := if largest == 0 then a.columns else a.columns.map (·.map (· / largest))
  (scaledTriples m n scaled largest).mergeSort fun a b => decide (b.value ≤ a.value)

end ParameterScan.Linear
