import ParameterScan.Linear.Mat

/-!
# The inverse of a matrix

Up to four rows the inverse is written out by cofactors over the determinant. Larger matrices are
reduced by elimination with the largest pivot of each column, whose row changes places with the
first one. A determinant or a pivot of zero means that there is no inverse.
-/
namespace ParameterScan.Linear

variable {α : Type} [Scalar α]

/-- The place of the row whose first entry is largest in magnitude, the earliest of several. -/
def pivotPlace (row : List α) (rows : List (List α)) : Nat :=
  let larger (best next : List α × Nat) : List α × Nat :=
    if Scalar.abs (best.1.headD 0) < Scalar.abs (next.1.headD 0) then next else best
  ((rows.zipIdx 1).foldl larger (row, 0)).2

/-- The row at a place and the others, the first row put where that one stood. -/
def takeRow (row : List α) (rows : List (List α)) : Nat → List α × List (List α)
  | 0 => (row, rows)
  | k + 1 => (rows.getD k row, rows.set k row)

/-- A row without its first entry, the pivot row subtracted as often as clears that entry. -/
def clearFirst (pivot row : List α) : List α :=
  let times := row.headD 0 * (1 / pivot.headD 0)
  List.zipWith (fun x p => x - p * times) row.tail pivot.tail

/-- Rows in triangular form, each starting with its pivot. -/
def triangular : (fuel : Nat) → List (List α) → Option (List (List α))
  | fuel + 1, row :: rows =>
      let (pivot, others) := takeRow row rows (pivotPlace row rows)
      if pivot.headD 0 == 0 then none
      else (triangular fuel (others.map (clearFirst pivot))).map (pivot :: ·)
  | _, _ => some []

/-- Solves triangular rows for the unknowns, from the last one up. Each row holds its pivot, the
coefficients of the later unknowns and the right sides. -/
def backSubstitute : List (List α) → List (List α)
  | [] => []
  | row :: rows =>
      let later := backSubstitute rows
      let coefficients := row.tail.take later.length
      let right := row.tail.drop later.length
      let reduced := (coefficients.zip later).foldr
        (fun (c, x) b => List.zipWith (fun b x => b - c * x) b x) right
      reduced.map (· / row.headD 0) :: later

/-- The rows of a matrix followed by those of the identity. -/
def augmented {n : Nat} (a : Mat α n n) : List (List α) :=
  (List.finRange n).map fun i =>
    (a.rows.get i).toList ++ (List.finRange n).map fun j => if i = j then 1 else 0

def eliminated? {n : Nat} (a : Mat α n n) : Option (Mat α n n) :=
  (triangular n (augmented a)).bind fun rows => Mat.ofLists? n n (backSubstitute rows)

def inverseOne? (a : Mat α 1 1) : Option (Mat α 1 1) :=
  let det := a.entry 0 0
  if det == 0 then none else some (Mat.ofFn fun _ _ => 1 / det)

def inverseTwo? (a : Mat α 2 2) : Option (Mat α 2 2) :=
  let det := a.entry 0 0 * a.entry 1 1 - a.entry 1 0 * a.entry 0 1
  if det == 0 then none
  else some ⟨#v[#v[a.entry 1 1 / det, -a.entry 0 1 / det],
    #v[-a.entry 1 0 / det, a.entry 0 0 / det]]⟩

def inverseThree? (a : Mat α 3 3) : Option (Mat α 3 3) :=
  let m := a.entry
  let minor (i j k l : Fin 3) : α := m i j * m k l - m k j * m i l
  let first := minor 1 1 2 2
  let second := minor 1 0 2 2
  let third := minor 1 0 2 1
  let det := m 0 0 * first - m 0 1 * second + m 0 2 * third
  if det == 0 then none
  else some ⟨#v[
    #v[first / det, (m 0 2 * m 2 1 - m 2 2 * m 0 1) / det,
      (m 0 1 * m 1 2 - m 1 1 * m 0 2) / det],
    #v[-second / det, (m 0 0 * m 2 2 - m 2 0 * m 0 2) / det,
      (m 0 2 * m 1 0 - m 1 2 * m 0 0) / det],
    #v[third / det, (m 0 1 * m 2 0 - m 2 1 * m 0 0) / det,
      (m 0 0 * m 1 1 - m 1 0 * m 0 1) / det]]⟩

/-- The indices other than `i` in their order. -/
def skip (i : Fin 4) (k : Fin 3) : Fin 4 := if k.val < i.val then k.castSucc else k.succ

/-- The determinant of a matrix of four rows without one of them and without one column. -/
def minor (a : Mat α 4 4) (row column : Fin 4) : α :=
  let m (i j : Fin 3) : α := a.entry (skip row i) (skip column j)
  m 0 0 * m 1 1 * m 2 2 - m 0 0 * m 2 1 * m 1 2 - m 0 1 * m 1 0 * m 2 2 + m 0 1 * m 2 0 * m 1 2
    + m 0 2 * m 1 0 * m 2 1 - m 0 2 * m 2 0 * m 1 1

def cofactor (a : Mat α 4 4) (row column : Fin 4) : α :=
  if (row.val + column.val) % 2 = 0 then minor a row column else -minor a row column

def inverseFour? (a : Mat α 4 4) : Option (Mat α 4 4) :=
  let det := a.entry 0 0 * cofactor a 0 0 + a.entry 1 0 * cofactor a 1 0
    + a.entry 2 0 * cofactor a 2 0 + a.entry 3 0 * cofactor a 3 0
  if det == 0 then none
  else
    let scale := 1 / det
    some (Mat.ofFn fun i j => cofactor a j i * scale)

/-- The inverse of a square matrix. -/
def inverse? : {n : Nat} → Mat α n n → Option (Mat α n n)
  | 0, a => some a
  | 1, a => inverseOne? a
  | 2, a => inverseTwo? a
  | 3, a => inverseThree? a
  | 4, a => inverseFour? a
  | _ + 5, a => eliminated? a

end ParameterScan.Linear
