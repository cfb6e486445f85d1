import ParameterScan.Linear.Svd

/-!
# Least squares

The least-squares solution of a linear system is read off its singular triples, with the values up
to a threshold taken as zero. The threshold is absolute. Looser ones are tried when the solution is
not finite.

A damped step solves the system of a Jacobian stacked on the weighted column lengths: the same
problem as the normal equations with the weights added on the diagonal.
-/
namespace ParameterScan.Linear

variable {α : Type} [Scalar α] {m n : Nat}

/-- The combination of right vectors that the triples above the threshold give for a right side. -/
def pseudoSolve (n : Nat) (triples : List (SingularTriple α)) (y : List α) (threshold : α) :
    Vector α n :=
  let parts := triples.map fun t =>
    if threshold < t.value then dot t.left y / t.value else 0
  Vector.ofFn fun j => dot (triples.map fun t => t.right.getD j 0) parts

/-- The thresholds in the order in which they are tried. -/
def thresholds : List α := [1e-12, 1e-10, 1e-8]

/-- The least-squares solution from given singular triples, the first one that is finite. -/
def leastSquaresWith (triples : List (SingularTriple α)) (y : Vector α m) : Option (Vector α n) :=
  (thresholds.map (pseudoSolve n triples y.toList)).find? fun b => b.all Scalar.isFinite

def leastSquares (a : Mat α m n) (y : Vector α m) : Option (Vector α n) :=
  leastSquaresWith (singularTriples a) y

/-- The length of a column of the Jacobian, with a floor so that a flat direction is damped too. -/
def columnScale (jac : Mat α m n) (j : Fin n) : α :=
  Scalar.larger (norm (jac.column j)) 1e-12

/-- The Jacobian on top of a diagonal of weighted column lengths. -/
def dampedMatrix (jac : Mat α m n) (damping : α) : Mat α (m + n) n :=
  let weight := Scalar.sqrt (Scalar.larger damping 0)
  Mat.ofFn fun i j =>
    if h : i.val < m then jac.entry ⟨i.val, h⟩ j
    else if i.val = m + j.val then weight * columnScale jac j else 0

/-- The negative residuals on top of zeros. -/
def dampedTarget (n : Nat) (resid : Vector α m) : Vector α (m + n) :=
  Vector.ofFn fun i => if h : i.val < m then -resid[i.val] else 0

/-- The step that minimises the linearised residuals plus the damping, by a given solver. -/
def dampedStepWith (solve : Mat α (m + n) n → Vector α (m + n) → Option (Vector α n))
    (jac : Mat α m n) (resid : Vector α m) (damping : α) : Option (Vector α n) :=
  solve (dampedMatrix jac damping) (dampedTarget n resid)

def dampedStep (jac : Mat α m n) (resid : Vector α m) (damping : α) : Option (Vector α n) :=
  dampedStepWith leastSquares jac resid damping

end ParameterScan.Linear
