import ParameterScan.Json.Record

/-!
# Numbers in stored records

Records are read and written over any type of numbers that has a form in JSON. Doubles are written
in their shortest digits, and whole ones are read from a count too; what is not finite is written as
null, which no reader takes for a number.
-/
namespace ParameterScan.Json

/-- How the numbers of a type are written and read. -/
structure NumberFormat (α : Type) where
  write : α → Json
  read? : Json → Option α

namespace NumberFormat

def double : NumberFormat Float := ⟨ofDouble fun _ => .null, toDouble?⟩

def count : NumberFormat Nat := ⟨nat, toCount?⟩

end NumberFormat

/-- The written form of a value that may be missing. -/
def ofOption {β : Type} (write : β → Json) (x : Option β) : Json := (x.map write).getD .null

def ofList {β : Type} (write : β → Json) (xs : List β) : Json := .array (xs.map write)

def ofVector {β : Type} {n : Nat} (write : β → Json) (v : Vector β n) : Json :=
  ofList write v.toList

end ParameterScan.Json
