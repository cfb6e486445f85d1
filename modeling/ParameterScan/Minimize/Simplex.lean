import ParameterScan.Minimize.Search

/-!
# The simplex search

A simplex of one vertex more than there are coordinates is moved downhill. Its worst vertex is
reflected in the centre of the others; depending on the value there the simplex is stretched, takes
the reflected point, is contracted, or shrinks towards its best vertex. All points but those of a
shrinking are moved into the box first; a shrinking takes points between two vertices.

A `NaN` of the function counts as infinity.
-/
namespace ParameterScan.Simplex

variable {α : Type} [Scalar α]

/-- A point of the simplex and the value of the function there. -/
structure Vertex (α : Type) where
  point : List α
  value : α

/-- The value that the search works with. -/
def reading (v : α) : α := if Scalar.isNaN v then Scalar.infinity else v

def probe (f : List α → α) (t : Trail α) (x : List α) : Vertex α × Trail α :=
  (⟨x, reading (f x)⟩, t.visit x)

def probeAll (f : List α → α) : Trail α → List (List α) → List (Vertex α) × Trail α
  | t, [] => ([], t)
  | t, x :: xs =>
      let (v, t) := probe f t x
      let (vs, t) := probeAll f t xs
      (v :: vs, t)

def firstStep (x : α) : α := if x == 0 then 0.00025 else 0.05 * x

/-- The starting vertex that differs from the start in coordinate `i`: up by a step, or down where
the box does not let it go up. -/
def neighbour (box : Box α) (start : List α) (i : Fin start.length) : List α :=
  let step := firstStep (start.get i)
  let up := box.clamp (start.set i (start.get i + step))
  if up.getD i 0 == start.get i then box.clamp (up.set i (start.get i - step)) else up

def startPoints (box : Box α) (x0 : List α) : List (List α) :=
  let start := box.clamp x0
  start :: (List.finRange start.length).map (neighbour box start)

/-- Best vertex first. Vertices of one value keep their order. -/
def sorted (vs : List (Vertex α)) : List (Vertex α) :=
  vs.mergeSort fun a b => decide (a.value ≤ b.value)

/-- Whether a point is within a relative distance of the best one in each coordinate. -/
def near (best x : List α) : Bool :=
  (List.zipWith (fun a b => decide (Scalar.abs (a - b) ≤ 1e-9 * (1 + Scalar.abs b))) x best).all id

def centroid (n : Nat) (vs : List (Vertex α)) : List α :=
  vs.foldl (fun c v => List.zipWith (fun c x => c + x / Scalar.ofNat n) c v.point)
    (List.replicate n 0)

/-- The point beyond the centre as seen from the worst vertex, at `t` times its distance. -/
def along (box : Box α) (centre worst : List α) (t : α) : List α :=
  box.clamp (List.zipWith (fun c w => c + t * (c - w)) centre worst)

def halfway (best x : List α) : List α :=
  List.zipWith (fun b v => b + 0.5 * (v - b)) best x

/-- One move of a sorted simplex, given as all vertices but the worst, and the worst. -/
def move (f : List α → α) (box : Box α) (best : Vertex α) (others : List (Vertex α))
    (worst : Vertex α) (t : Trail α) : List (Vertex α) × Trail α :=
  let kept := best :: others
  let centre := centroid kept.length kept
  let (reflected, t) := probe f t (along box centre worst.point 1)
  if reflected.value < best.value then
    let (expanded, t) := probe f t (along box centre worst.point 2)
    (kept ++ [if expanded.value < reflected.value then expanded else reflected], t)
  else if reflected.value < (others.getLastD best).value then (kept ++ [reflected], t)
  else
    let factor := if reflected.value < worst.value then 0.5 else -0.5
    let (contracted, t) := probe f t (along box centre worst.point factor)
    if contracted.value < Scalar.smaller reflected.value worst.value then
      (kept ++ [contracted], t)
    else
      let (shrunk, t) :=
        probeAll f t ((others ++ [worst]).map fun v => halfway best.point v.point)
      (best :: shrunk, t)

/-- The simplex has met the tolerance or has become small. -/
def settled (tolerance : α) (best : Vertex α) (others : List (Vertex α)) (worst : Vertex α) :
    Bool :=
  (Scalar.isFinite best.value && closeTo tolerance best.value worst.value)
    || others.all fun v => near best.point v.point

/-- Moves the simplex until it is settled or the budget is used up. Each round but the last makes an
evaluation, so a fuel of the budget is enough. -/
def descend (f : List α → α) (box : Box α) (tolerance : α) (budget : Nat) :
    (fuel : Nat) → List (Vertex α) → Trail α → List (Vertex α) × Trail α × Bool
  | 0, vs, t => (vs, t, false)
  | fuel + 1, vs, t =>
      if budget ≤ t.count then (vs, t, false)
      else
        match sorted vs with
        | [] => (vs, t, true)
        | best :: rest =>
            let worst := rest.getLastD best
            if settled tolerance best rest worst then (best :: rest, t, true)
            else
              let (vs, t) := move f box best rest.dropLast worst t
              descend f box tolerance budget fuel vs t

def search (f : List α → α) (x0 : List α) (box : Box α) (cfg : SearchConfig α) : Minimum α :=
  let budget := cfg.budgetFor x0.length 400
  let (vs, t) := probeAll f Trail.empty (startPoints box x0)
  let (vs, t, converged) := descend f box cfg.tolerance budget budget vs t
  match sorted vs with
  | [] => ⟨x0, Scalar.infinity, converged, t⟩
  | best :: _ => ⟨best.point, best.value, converged, t⟩

end ParameterScan.Simplex
