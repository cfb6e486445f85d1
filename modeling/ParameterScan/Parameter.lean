import ParameterScan.Error

/-!
# Model parameters

A parameter has a value, hard limits and a flag that keeps it out of a fit. Assigning a value checks
the limits, so a `NaN` is refused; writing the field itself does not. The thawed parameters of a
model, in model order, form the vector that an optimizer moves: `thawedValues` reads it,
`assignThawed` writes it back, and `substitute` gives all values with it put in.
-/
namespace ParameterScan

structure Parameter (α : Type) where
  name : String
  value : α
  lower : α
  upper : α
  frozen : Bool := false
  deriving Repr, DecidableEq

namespace Parameter

variable {α : Type} [Scalar α]

instance : Inhabited (Parameter α) := ⟨{ name := "", value := 0, lower := 0, upper := 0 }⟩

def freeze (p : Parameter α) : Parameter α := { p with frozen := true }

def thaw (p : Parameter α) : Parameter α := { p with frozen := false }

/-- The parameter at a new value, which has to lie within the limits. -/
def assign (p : Parameter α) (x : α) : Except (FitError α) (Parameter α) :=
  if p.lower ≤ x ∧ x ≤ p.upper then .ok { p with value := x }
  else .error (.outOfLimits p.name x p.lower p.upper)

def clamp (p : Parameter α) (x : α) : α :=
  Scalar.clamp p.lower p.upper x

end Parameter

namespace Parameters

variable {α : Type} [Scalar α]

/-- The parameters that a fit may move. -/
def thawed (ps : List (Parameter α)) : List (Parameter α) :=
  ps.filter fun p => !p.frozen

def thawedCount (ps : List (Parameter α)) : Nat :=
  (thawed ps).length

def thawedValues (ps : List (Parameter α)) : List α :=
  (thawed ps).map Parameter.value

def index? (ps : List (Parameter α)) (name : String) : Option Nat :=
  ps.findIdx? fun p => p.name == name

/-- Assigns the thawed parameters one after the other. The first refused value ends the assignment;
those before it stay. -/
def assignEach : List (Parameter α) → List α → List (Parameter α) × Except (FitError α) Unit
  | p :: ps, x :: xs =>
      if p.frozen then
        let rest := assignEach ps (x :: xs)
        (p :: rest.1, rest.2)
      else
        match p.assign x with
        | .ok p =>
            let rest := assignEach ps xs
            (p :: rest.1, rest.2)
        | .error e => (p :: ps, .error e)
  | ps, _ => (ps, .ok ())

/-- Assigns the thawed parameters from a vector of their number. -/
def assignThawed (ps : List (Parameter α)) (xs : List α) :
    List (Parameter α) × Except (FitError α) Unit :=
  if xs.length = thawedCount ps then assignEach ps xs
  else (ps, .error (.thawedLength (thawedCount ps) xs.length))

/-- All values in model order, the thawed ones taken from `xs` as far as it goes. -/
def substitute : List (Parameter α) → List α → List α
  | [], _ => []
  | p :: ps, xs =>
      if p.frozen then p.value :: substitute ps xs
      else
        match xs with
        | [] => p.value :: substitute ps []
        | x :: xs => x :: substitute ps xs

end Parameters

end ParameterScan
