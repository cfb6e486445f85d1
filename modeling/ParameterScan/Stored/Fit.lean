import ParameterScan.Diagnostic
import ParameterScan.Fit
import ParameterScan.Json.NumberFormat

/-!
# Stored parameters, fits and advisories

The records of a fit in JSON. Optimizers, estimators and kinds of advisory are stored by their
names.
-/
namespace ParameterScan

open Json (NumberFormat)

variable {α : Type}

def Optimizer.ofJson? (j : Json) : Option Optimizer := (Json.toWord? j).bind ofName?

def Estimator.ofJson? (j : Json) : Option Estimator := (Json.toWord? j).bind ofName?

def DiagnosticKind.ofJson? (j : Json) : Option DiagnosticKind := (Json.toWord? j).bind ofName?

namespace Parameter

def toJson (num : NumberFormat α) (p : Parameter α) : Json :=
  .object [
    ("fullname", .string p.name),
    ("val", num.write p.value),
    ("min", num.write p.lower),
    ("max", num.write p.upper),
    ("frozen", .bool p.frozen)]

def ofJson? (num : NumberFormat α) (j : Json) : Option (Parameter α) := do
  let fs ← Json.fields? ["fullname", "val", "min", "max", "frozen"] true j
  let name ← fs.required "fullname" Json.toText?
  let value ← fs.required "val" num.read?
  let lower ← fs.required "min" num.read?
  let upper ← fs.required "max" num.read?
  let frozen ← fs.required "frozen" Json.toBool?
  return { name, value, lower, upper, frozen }

end Parameter

namespace FitResult

def toJson (num : NumberFormat α) (r : FitResult α) : Json :=
  .object [
    ("statval", num.write r.stat),
    ("parvals", Json.ofList num.write r.values),
    ("nfev", Json.nat r.evaluations),
    ("method", .string r.method.name)]

def ofJson? (num : NumberFormat α) (j : Json) : Option (FitResult α) := do
  let fs ← Json.fields? ["statval", "parvals", "nfev", "method"] true j
  let stat ← fs.required "statval" num.read?
  let values ← fs.required "parvals" (Json.toList? num.read?)
  let evaluations ← fs.required "nfev" Json.toCount?
  let method ← fs.required "method" Optimizer.ofJson?
  return { stat, values, evaluations, method }

end FitResult

namespace ErrorEstimate

def toJson (num : NumberFormat α) (e : ErrorEstimate α) : Json :=
  .object [
    ("method", .string e.method.name),
    ("parnames", Json.ofList .string e.names),
    ("parvals", Json.ofList num.write e.values),
    ("parmins", Json.ofList (Json.ofOption num.write) e.lower),
    ("parmaxes", Json.ofList (Json.ofOption num.write) e.upper)]

def ofJson? (num : NumberFormat α) (j : Json) : Option (ErrorEstimate α) := do
  let fs ← Json.fields? ["method", "parnames", "parvals", "parmins", "parmaxes"] true j
  let method ← fs.required "method" Estimator.ofJson?
  let names ← fs.required "parnames" (Json.toList? Json.toText?)
  let values ← fs.required "parvals" (Json.toList? num.read?)
  let lower ← fs.required "parmins" (Json.toList? (Json.nullable num.read?))
  let upper ← fs.required "parmaxes" (Json.toList? (Json.nullable num.read?))
  return { method, names, values, lower, upper }

end ErrorEstimate

namespace Diagnostic

def toJson (d : Diagnostic) : Json :=
  .object [("kind", .string d.kind.name), ("message", .string d.message)]

def ofJson? (j : Json) : Option Diagnostic := do
  let fs ← Json.fields? ["kind", "message"] true j
  let kind ← fs.required "kind" DiagnosticKind.ofJson?
  let message ← fs.required "message" Json.toText?
  return { kind, message }

end Diagnostic

namespace Diagnostics

def toJson (ds : Diagnostics) : Json := .object [("records", Json.ofList Diagnostic.toJson ds)]

def ofJson? (j : Json) : Option Diagnostics := do
  let fs ← Json.fields? ["records"] true j
  fs.required "records" (Json.toList? Diagnostic.ofJson?)

end Diagnostics

end ParameterScan
