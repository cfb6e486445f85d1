import ParameterScan.Scan.Interval
import ParameterScan.Scan.Region

/-!
# Summaries in plain text

A summary is a block of lines `key = value` with the signs aligned. A long array is shown by its
ends. The texts of the numbers are arguments: `plain` for single values, `fixed` for those of an
array.
-/
namespace ParameterScan

/-- How the numbers of a summary are written. -/
structure NumberText (α : Type) where
  /-- A number that stands by itself. -/
  plain : α → String
  /-- A number in an array. -/
  fixed : α → String

namespace Summary

variable {α : Type}

/-- Arrays longer than this are abbreviated. -/
def maxShown : Nat := 6

/-- How many values an abbreviated array shows at each end. -/
def edge : Nat := 3

def spaced (texts : List String) : String := String.intercalate " " texts

/-- The values between brackets, those in the middle of a long array left out. -/
def array (text : NumberText α) (xs : List α) : String :=
  let texts := xs.map text.fixed
  if texts.length ≤ maxShown then "[" ++ spaced texts ++ "]"
  else
    let front := spaced (texts.take edge)
    let back := spaced (texts.drop (texts.length - edge))
    "[" ++ front ++ " ... " ++ back ++ "]"

/-- All texts of a short list between brackets. -/
def list (texts : List String) : String := "[" ++ String.intercalate ", " texts ++ "]"

def option (text : Option String) : String := text.getD "None"

def bool (b : Bool) : String := if b then "true" else "false"

/-- A text with blanks behind it up to a number of characters. -/
def padded (width : Nat) (s : String) : String :=
  s ++ String.ofList (List.replicate (width - s.length) ' ')

/-- One line for each field. The width of the keys is that of the longest one in UTF-8. -/
def fields (fs : List (String × String)) : String :=
  let width := fs.foldl (fun width f => max width f.1.utf8ByteSize) 0
  String.intercalate "\n" (fs.map fun f => padded width f.1 ++ " = " ++ f.2)

end Summary

variable {α : Type}

/-- The curve, its range and its layout. -/
def IntervalResult.summary (text : NumberText α) (r : IntervalResult α) : String :=
  Summary.fields [
    ("x", Summary.array text r.x),
    ("y", Summary.array text r.y),
    ("min", text.plain r.lower),
    ("max", text.plain r.upper),
    ("nloop", toString r.count),
    ("delv", Summary.option (r.spacing.map text.plain)),
    ("fac", text.plain r.factor),
    ("log", Summary.bool r.log)]

/-- The surface, its ranges, its layout and its levels. -/
def RegionResult.summary (text : NumberText α) (r : RegionResult α) : String :=
  let pair (v : Vector α 2) : String := Summary.list (v.toList.map text.plain)
  Summary.fields [
    ("x0", Summary.array text r.x0),
    ("x1", Summary.array text r.x1),
    ("y", Summary.array text r.y),
    ("min", pair r.lower),
    ("max", pair r.upper),
    ("nloop", Summary.list (r.count.toList.map toString)),
    ("fac", text.plain r.factor),
    ("delv", Summary.option (r.spacing.map pair)),
    ("log", Summary.list (r.log.toList.map Summary.bool)),
    ("sigma", Summary.option (r.sigma.map fun s => Summary.list (s.map text.plain))),
    ("parval0", text.plain r.value0),
    ("parval1", text.plain r.value1),
    ("levels", Summary.array text r.levels)]

end ParameterScan
