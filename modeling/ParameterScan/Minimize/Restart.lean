import ParameterScan.Minimize.Simplex
import ParameterScan.Random.Stream

/-!
# Simplex searches from random starts

A first search, then a number of searches from random points around the best point so far, and a
last one from the best point of all. The source of random numbers is an argument: `searchWith` takes
any generator, `search` the stream of the configured seed.
-/
namespace ParameterScan.Restart

variable {α γ : Type} [Scalar α]

/-- A point around the given one, each coordinate moved by up to half its magnitude, or by a half
where the magnitude is below one. -/
def perturb (draw : γ → α × γ) : γ → List α → List α × γ
  | g, [] => ([], g)
  | g, v :: vs =>
      let (u, g) := draw g
      let (rest, g) := perturb draw g vs
      ((v + 0.5 * Scalar.larger (Scalar.abs v) 1 * u) :: rest, g)

/-- The better of two outcomes, the first unless the second is below it; the trails are joined. -/
def better (best trial : Minimum α) : Minimum α :=
  let trail := best.trail.append trial.trail
  if trial.value < best.value then { trial with trail } else { best with trail }

def restarts (f : List α → α) (box : Box α) (cfg : SearchConfig α) (draw : γ → α × γ) :
    Nat → γ → Minimum α → Minimum α
  | 0, _, best => best
  | n + 1, g, best =>
      let (start, g) := perturb draw g best.point
      restarts f box cfg draw n g (better best (Simplex.search f start box cfg))

/-- The last search from the best point takes its place unless it ends higher. -/
def polish (best last : Minimum α) : Minimum α :=
  let trail := best.trail.append last.trail
  if last.value ≤ best.value then { last with trail } else { best with trail }

/-- The whole procedure with a given source of random numbers. -/
def searchWith (draw : γ → α × γ) (g : γ) (f : List α → α) (x0 : List α) (box : Box α)
    (cfg : SearchConfig α) : Minimum α :=
  let best := restarts f box cfg draw cfg.restarts g (Simplex.search f x0 box cfg)
  polish best (Simplex.search f best.point box cfg)

def search (f : List α → α) (x0 : List α) (box : Box α) (cfg : SearchConfig α) : Minimum α :=
  searchWith Random.uniform (Random.Stream.ofSeed cfg.seed) f x0 box cfg

end ParameterScan.Restart
