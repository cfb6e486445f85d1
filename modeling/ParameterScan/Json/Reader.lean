import ParameterScan.Json

/-!
# Reading JSON

A reader of the grammar of JSON over a list of characters. Each step takes at least one character,
so a fuel of one more than the length of the text is never used up. A text is one value with blanks
around it; anything after the value is refused. An escape that names half of a surrogate pair, the
other half apart, names no character; it makes the value around it unreadable and leaves the text
as a whole in order, so that such a value can still be passed over.
-/
namespace ParameterScan.Json

/-- What is left to read. -/
abbrev Rest := List Char

def isBlank (c : Char) : Bool :=
  c = ' ' || c = '\n' || c = '\t' || c = '\x0d'

def skipBlank (s : Rest) : Rest := s.dropWhile isBlank

def isDigit (c : Char) : Bool := '0' ≤ c && c ≤ '9'

/-- The digits at the front, at least one. -/
def digits (s : Rest) : Option (List Char × Rest) :=
  match s.takeWhile isDigit with
  | [] => none
  | ds => some (ds, s.dropWhile isDigit)

/-- The digits in front of the point: a leading zero stands alone. -/
def wholePart (s : Rest) : Option (List Char × Rest) := do
  let (ds, rest) ← digits s
  match ds with
  | '0' :: _ :: _ => none
  | _ => some (ds, rest)

def fractionPart : Rest → Option (Option (List Char) × Rest)
  | '.' :: s => do
      let (ds, rest) ← digits s
      return (some ds, rest)
  | s => some (none, s)

def natOfDigits (ds : List Char) : Nat :=
  ds.foldl (fun n c => n * 10 + digitValue c) 0

def signedDigits (s : Rest) : Option (Int × Rest) :=
  match s with
  | '-' :: s => (digits s).map fun (ds, rest) => (-(natOfDigits ds : Int), rest)
  | '+' :: s => (digits s).map fun (ds, rest) => ((natOfDigits ds : Int), rest)
  | s => (digits s).map fun (ds, rest) => ((natOfDigits ds : Int), rest)

def exponentPart : Rest → Option (Option Int × Rest)
  | c :: s =>
      if c = 'e' || c = 'E' then (signedDigits s).map fun (e, rest) => (some e, rest)
      else some (none, c :: s)
  | [] => some (none, [])

def numeral (negative : Bool) (s : Rest) : Option (Numeral × Rest) := do
  let (whole, s) ← wholePart s
  let (fraction, s) ← fractionPart s
  let (exponent, s) ← exponentPart s
  return (⟨negative, whole, fraction, exponent⟩, s)

def hexValue (c : Char) : Option Nat :=
  if isDigit c then some (digitValue c)
  else if 'a' ≤ c && c ≤ 'f' then some (c.toNat - 'a'.toNat + 10)
  else if 'A' ≤ c && c ≤ 'F' then some (c.toNat - 'A'.toNat + 10)
  else none

def hexFour : Rest → Option (Nat × Rest)
  | a :: b :: c :: d :: s => do
      let a ← hexValue a
      let b ← hexValue b
      let c ← hexValue c
      let d ← hexValue d
      return (((a * 16 + b) * 16 + c) * 16 + d, s)
  | _ => none

/-- The second half of a surrogate pair, when it comes next. -/
def lowSurrogate : Rest → Option (Nat × Rest)
  | '\\' :: 'u' :: s => (hexFour s).filter fun (low, _) => 0xDC00 ≤ low && low < 0xE000
  | _ => none

/-- The character of a four-digit escape, or of two that form a surrogate pair. Half of a pair has
none. -/
def unicodeEscape (s : Rest) : Option (Option Char × Rest) := do
  let (high, s) ← hexFour s
  if high < 0xD800 || 0xE000 ≤ high then return (some (Char.ofNat high), s)
  else if 0xDC00 ≤ high then return (none, s)
  else
    match lowSurrogate s with
    | some (low, s) =>
        return (some (Char.ofNat (0x10000 + (high - 0xD800) * 0x400 + (low - 0xDC00))), s)
    | none => return (none, s)

def simpleEscape (c : Char) : Option Char :=
  match c with
  | '"' => some '"'
  | '\\' => some '\\'
  | '/' => some '/'
  | 'b' => some '\x08'
  | 'f' => some '\x0c'
  | 'n' => some '\n'
  | 'r' => some '\x0d'
  | 't' => some '\t'
  | _ => none

/-- The characters up to the closing quote, with a gap for each half of a surrogate pair. -/
def stringBody : (fuel : Nat) → Rest → Option (List (Option Char) × Rest)
  | 0, _ => none
  | _ + 1, [] => none
  | _ + 1, '"' :: s => some ([], s)
  | fuel + 1, '\\' :: 'u' :: s => do
      let (c, s) ← unicodeEscape s
      let (cs, s) ← stringBody fuel s
      return (c :: cs, s)
  | fuel + 1, '\\' :: e :: s => do
      let c ← simpleEscape e
      let (cs, s) ← stringBody fuel s
      return (some c :: cs, s)
  | fuel + 1, c :: s =>
      if c = '\\' || c.toNat < 32 then none
      else do
        let (cs, s) ← stringBody fuel s
        return (some c :: cs, s)

/-- The text of the characters when there is no gap among them. -/
def textOf? (cs : List (Option Char)) : Option String := (cs.mapM id).map String.ofList

/-- A quoted string, which may have no text, and what follows it. -/
def quoted : Rest → Option (Option String × Rest)
  | '"' :: s => (stringBody (s.length + 1) s).map fun (cs, rest) => (textOf? cs, rest)
  | _ => none

def ofQuoted (text : Option String) : Json := (text.map Json.string).getD .unreadable

/-- A field with a name that is a text. -/
def named : Option String × Json → Option (String × Json)
  | (name, j) => name.map fun name => (name, j)

/-- The object with the given fields, when all their names are texts. -/
def ofMembers (fields : List (Option String × Json)) : Json :=
  ((fields.mapM named).map Json.object).getD .unreadable

mutual

/-- One value after any blanks. -/
def value : (fuel : Nat) → Rest → Option (Json × Rest)
  | 0, _ => none
  | fuel + 1, s =>
      match skipBlank s with
      | 'n' :: 'u' :: 'l' :: 'l' :: s => some (.null, s)
      | 't' :: 'r' :: 'u' :: 'e' :: s => some (.bool true, s)
      | 'f' :: 'a' :: 'l' :: 's' :: 'e' :: s => some (.bool false, s)
      | '"' :: s => (quoted ('"' :: s)).map fun (t, rest) => (ofQuoted t, rest)
      | '[' :: s =>
          match skipBlank s with
          | ']' :: s => some (.array [], s)
          | s => (items fuel s).map fun (js, rest) => (.array js, rest)
      | '\x7b' :: s =>
          match skipBlank s with
          | '\x7d' :: s => some (.object [], s)
          | s => (members fuel s).map fun (fs, rest) => (ofMembers fs, rest)
      | '-' :: s => (numeral true s).map fun (n, rest) => (.number n, rest)
      | s => (numeral false s).map fun (n, rest) => (.number n, rest)

/-- The items of an array up to its closing bracket. -/
def items : (fuel : Nat) → Rest → Option (List Json × Rest)
  | 0, _ => none
  | fuel + 1, s => do
      let (j, s) ← value fuel s
      match skipBlank s with
      | ',' :: s => do
          let (js, s) ← items fuel s
          return (j :: js, s)
      | ']' :: s => return ([j], s)
      | _ => none

/-- The fields of an object up to its closing brace. -/
def members : (fuel : Nat) → Rest → Option (List (Option String × Json) × Rest)
  | 0, _ => none
  | fuel + 1, s => do
      let (name, s) ← quoted (skipBlank s)
      match skipBlank s with
      | ':' :: s => do
          let (j, s) ← value fuel s
          match skipBlank s with
          | ',' :: s => do
              let (fs, s) ← members fuel s
              return ((name, j) :: fs, s)
          | '\x7d' :: s => return ([(name, j)], s)
          | _ => none
      | _ => none

end

/-- The one value that a text holds. -/
def ofText? (text : String) : Option Json := do
  let s := text.toList
  let (j, rest) ← value (s.length + 1) s
  if (skipBlank rest).isEmpty then some j else none

end ParameterScan.Json
