import ParameterScan.Json.NumberFormat
import ParameterScan.Scan.Options

/-!
# Stored options

Scan options as records in JSON. A field that is absent has its default; null stands for a value
that is not set, which differs from an absent one where the default is set. A value for all axes is
told from one for each by whether it is a list.
-/
namespace ParameterScan

open Json (NumberFormat)

variable {α : Type}

namespace PerAxis

def toJson (num : NumberFormat α) : PerAxis α → Json
  | single x => num.write x
  | each xs => Json.ofList num.write xs

def ofJson? (num : NumberFormat α) (j : Json) : Option (PerAxis α) :=
  match num.read? j with
  | some x => some (single x)
  | none => (Json.toList? num.read? j).map each

end PerAxis

variable [Scalar α]

namespace IntervalOptions

/-- The fields in the order in which a list gives them. -/
def fieldNames : List String := ["min", "max", "nloop", "delv", "fac", "log", "numcores", "fast"]

def toJson (num : NumberFormat α) (o : IntervalOptions α) : Json :=
  .object [
    ("min", Json.ofOption (PerAxis.toJson num) o.lower),
    ("max", Json.ofOption (PerAxis.toJson num) o.upper),
    ("nloop", o.count.toJson .count),
    ("delv", Json.ofOption num.write o.spacing),
    ("fac", num.write o.factor),
    ("log", .bool o.log),
    ("numcores", Json.ofOption Json.nat o.workers),
    ("fast", .bool o.fast)]

def ofJson? (num : NumberFormat α) (j : Json) : Option (IntervalOptions α) := do
  let d : IntervalOptions α := default
  let fs ← Json.fields? fieldNames false j
  let lower ← fs.orDefault "min" d.lower (Json.nullable (PerAxis.ofJson? num))
  let upper ← fs.orDefault "max" d.upper (Json.nullable (PerAxis.ofJson? num))
  let count ← fs.orDefault "nloop" d.count (PerAxis.ofJson? .count)
  let spacing ← fs.orDefault "delv" d.spacing (Json.nullable num.read?)
  let factor ← fs.orDefault "fac" d.factor num.read?
  let log ← fs.orDefault "log" d.log Json.toBool?
  let workers ← fs.orDefault "numcores" d.workers (Json.nullable Json.toCount?)
  let fast ← fs.orDefault "fast" d.fast Json.toBool?
  return { lower, upper, count, spacing, factor, log, workers, fast }

end IntervalOptions

namespace RegionOptions

/-- The fields in the order in which a list gives them. -/
def fieldNames : List String :=
  ["min", "max", "nloop", "delv", "fac", "log", "sigma", "levels", "numcores", "fast"]

def toJson (num : NumberFormat α) (o : RegionOptions α) : Json :=
  .object [
    ("min", Json.ofOption (PerAxis.toJson num) o.lower),
    ("max", Json.ofOption (PerAxis.toJson num) o.upper),
    ("nloop", o.count.toJson .count),
    ("delv", Json.ofOption (Json.ofVector num.write) o.spacing),
    ("fac", num.write o.factor),
    ("log", Json.ofVector .bool o.log),
    ("sigma", Json.ofOption (PerAxis.toJson num) o.sigma),
    ("levels", Json.ofOption (Json.ofList num.write) o.levels),
    ("numcores", Json.ofOption Json.nat o.workers),
    ("fast", .bool o.fast)]

def ofJson? (num : NumberFormat α) (j : Json) : Option (RegionOptions α) := do
  let d : RegionOptions α := default
  let fs ← Json.fields? fieldNames false j
  let lower ← fs.orDefault "min" d.lower (Json.nullable (PerAxis.ofJson? num))
  let upper ← fs.orDefault "max" d.upper (Json.nullable (PerAxis.ofJson? num))
  let count ← fs.orDefault "nloop" d.count (PerAxis.ofJson? .count)
  let spacing ← fs.orDefault "delv" d.spacing (Json.nullable (Json.toVector? 2 num.read?))
  let factor ← fs.orDefault "fac" d.factor num.read?
  let log ← fs.orDefault "log" d.log (Json.toVector? 2 Json.toBool?)
  let sigma ← fs.orDefault "sigma" d.sigma (Json.nullable (PerAxis.ofJson? num))
  let levels ← fs.orDefault "levels" d.levels (Json.nullable (Json.toList? num.read?))
  let workers ← fs.orDefault "numcores" d.workers (Json.nullable Json.toCount?)
  let fast ← fs.orDefault "fast" d.fast Json.toBool?
  return { lower, upper, count, spacing, factor, log, sigma, levels, workers, fast }

end RegionOptions

end ParameterScan
