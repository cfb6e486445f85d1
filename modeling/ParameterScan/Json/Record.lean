import ParameterScan.Json

/-!
# Records in JSON

A record is an object whose fields are found by name, or an array that gives the same fields by
position. Unknown names are passed over and a known name may stand only once. A reader returns
nothing when a value has the wrong shape; there is no partial result.
-/
namespace ParameterScan.Json

/-- The known fields that a value gives, each with its name. -/
abbrev Fields := List (String × Json)

/-- The fields of a record with the given names. An array gives all of them when the record is
`complete`, and otherwise any number from the front. -/
def fields? (names : List String) (complete : Bool) : Json → Option Fields
  | .object fs =>
      let known := fs.filter fun f => names.contains f.1
      if (known.map Prod.fst).Nodup then some known else none
  | .array js =>
      if js.length = names.length || (!complete && js.length < names.length) then
        some (names.zip js)
      else none
  | _ => none

def nullable {β : Type} (read : Json → Option β) : Json → Option (Option β)
  | .null => some none
  | j => (read j).map some

def Fields.required {β : Type} (fs : Fields) (name : String) (read : Json → Option β) : Option β :=
  (fs.lookup name).bind read

/-- A field that may be absent or null. -/
def Fields.optional {β : Type} (fs : Fields) (name : String) (read : Json → Option β) :
    Option (Option β) :=
  match fs.lookup name with
  | none => some none
  | some j => nullable read j

/-- A field with a value of its own when it is absent. -/
def Fields.orDefault {β : Type} (fs : Fields) (name : String) (default : β)
    (read : Json → Option β) : Option β :=
  match fs.lookup name with
  | none => some default
  | some j => read j

def toBool? : Json → Option Bool
  | .bool b => some b
  | _ => none

def toText? : Json → Option String
  | .string s => some s
  | _ => none

def toCount? : Json → Option Nat
  | .number n => n.toCount?
  | _ => none

def toDouble? : Json → Option Float
  | .number n => n.toDouble?
  | _ => none

def toList? {β : Type} (read : Json → Option β) : Json → Option (List β)
  | .array js => js.mapM read
  | _ => none

/-- A list of exactly `n` entries. -/
def toVector? {β : Type} (n : Nat) (read : Json → Option β) (j : Json) : Option (Vector β n) := do
  let xs ← toList? read j
  if h : xs.length = n then return ⟨xs.toArray, by simpa using h⟩ else none

/-- One of a set of words, as a string or as the only name of an object around null. -/
def toWord? : Json → Option String
  | .string s => some s
  | .object [(s, .null)] => some s
  | _ => none

end ParameterScan.Json
