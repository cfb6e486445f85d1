import ParameterScan.Display
import ParameterScan.Scan.Interval
import ParameterScan.Scan.Region
import ParameterScan.Stored.Fit

/-!
# Stored results

The results of scans and the residual displays as records in JSON. A value that may be missing is
stored as null and read from null or from an absent field.
-/
namespace ParameterScan

open Json (NumberFormat)

variable {α : Type}

namespace IntervalResult

def fieldNames : List String :=
  ["title", "xlabel", "ylabel", "x", "y", "min", "max", "nloop", "delv", "fac", "log", "stat",
    "parval", "diagnostics"]

def toJson (num : NumberFormat α) (r : IntervalResult α) : Json :=
  .object [
    ("title", .string r.title),
    ("xlabel", .string r.xlabel),
    ("ylabel", .string r.ylabel),
    ("x", Json.ofList num.write r.x),
    ("y", Json.ofList num.write r.y),
    ("min", num.write r.lower),
    ("max", num.write r.upper),
    ("nloop", Json.nat r.count),
    ("delv", Json.ofOption num.write r.spacing),
    ("fac", num.write r.factor),
    ("log", .bool r.log),
    ("stat", num.write r.stat),
    ("parval", num.write r.value),
    ("diagnostics", r.diagnostics.toJson)]

def ofJson? (num : NumberFormat α) (j : Json) : Option (IntervalResult α) := do
  let fs ← Json.fields? fieldNames true j
  let title ← fs.required "title" Json.toText?
  let xlabel ← fs.required "xlabel" Json.toText?
  let ylabel ← fs.required "ylabel" Json.toText?
  let x ← fs.required "x" (Json.toList? num.read?)
  let y ← fs.required "y" (Json.toList? num.read?)
  let lower ← fs.required "min" num.read?
  let upper ← fs.required "max" num.read?
  let count ← fs.required "nloop" Json.toCount?
  let spacing ← fs.optional "delv" num.read?
  let factor ← fs.required "fac" num.read?
  let log ← fs.required "log" Json.toBool?
  let stat ← fs.required "stat" num.read?
  let value ← fs.required "parval" num.read?
  let diagnostics ← fs.required "diagnostics" Diagnostics.ofJson?
  return {
    title, xlabel, ylabel, x, y, lower, upper, count, spacing, factor, log, stat, value,
    diagnostics }

end IntervalResult

namespace RegionResult

def fieldNames : List String :=
  ["title", "xlabel", "ylabel", "x0", "x1", "y", "min", "max", "nloop", "delv", "fac", "log",
    "sigma", "levels", "stat", "parval0", "parval1", "diagnostics"]

def toJson (num : NumberFormat α) (r : RegionResult α) : Json :=
  .object [
    ("title", .string r.title),
    ("xlabel", .string r.xlabel),
    ("ylabel", .string r.ylabel),
    ("x0", Json.ofList num.write r.x0),
    ("x1", Json.ofList num.write r.x1),
    ("y", Json.ofList num.write r.y),
    ("min", Json.ofVector num.write r.lower),
    ("max", Json.ofVector num.write r.upper),
    ("nloop", Json.ofVector Json.nat r.count),
    ("delv", Json.ofOption (Json.ofVector num.write) r.spacing),
    ("fac", num.write r.factor),
    ("log", Json.ofVector .bool r.log),
    ("sigma", Json.ofOption (Json.ofList num.write) r.sigma),
    ("levels", Json.ofList num.write r.levels),
    ("stat", num.write r.stat),
    ("parval0", num.write r.value0),
    ("parval1", num.write r.value1),
    ("diagnostics", r.diagnostics.toJson)]

def ofJson? (num : NumberFormat α) (j : Json) : Option (RegionResult α) := do
  let fs ← Json.fields? fieldNames true j
  let title ← fs.required "title" Json.toText?
  let xlabel ← fs.required "xlabel" Json.toText?
  let ylabel ← fs.required "ylabel" Json.toText?
  let x0 ← fs.required "x0" (Json.toList? num.read?)
  let x1 ← fs.required "x1" (Json.toList? num.read?)
  let y ← fs.required "y" (Json.toList? num.read?)
  let lower ← fs.required "min" (Json.toVector? 2 num.read?)
  let upper ← fs.required "max" (Json.toVector? 2 num.read?)
  let count ← fs.required "nloop" (Json.toVector? 2 Json.toCount?)
  let spacing ← fs.optional "delv" (Json.toVector? 2 num.read?)
  let factor ← fs.required "fac" num.read?
  let log ← fs.required "log" (Json.toVector? 2 Json.toBool?)
  let sigma ← fs.optional "sigma" (Json.toList? num.read?)
  let levels ← fs.required "levels" (Json.toList? num.read?)
  let stat ← fs.required "stat" num.read?
  let value0 ← fs.required "parval0" num.read?
  let value1 ← fs.required "parval1" num.read?
  let diagnostics ← fs.required "diagnostics" Diagnostics.ofJson?
  return {
    title, xlabel, ylabel, x0, x1, y, lower, upper, count, spacing, factor, log, sigma, levels,
    stat, value0, value1, diagnostics }

end RegionResult

namespace Display

def toJson (num : NumberFormat α) (d : Display α) : Json :=
  .object [
    ("title", .string d.title),
    ("xlabel", .string d.xlabel),
    ("ylabel", .string d.ylabel),
    ("x", Json.ofList num.write d.x),
    ("y", Json.ofList num.write d.y),
    ("yerr", Json.ofOption (Json.ofList num.write) d.errors),
    ("diagnostics", d.diagnostics.toJson)]

def ofJson? (num : NumberFormat α) (j : Json) : Option (Display α) := do
  let fs ← Json.fields? ["title", "xlabel", "ylabel", "x", "y", "yerr", "diagnostics"] true j
  let title ← fs.required "title" Json.toText?
  let xlabel ← fs.required "xlabel" Json.toText?
  let ylabel ← fs.required "ylabel" Json.toText?
  let x ← fs.required "x" (Json.toList? num.read?)
  let y ← fs.required "y" (Json.toList? num.read?)
  let errors ← fs.optional "yerr" (Json.toList? num.read?)
  let diagnostics ← fs.required "diagnostics" Diagnostics.ofJson?
  return { title, xlabel, ylabel, x, y, errors, diagnostics }

end Display

end ParameterScan
