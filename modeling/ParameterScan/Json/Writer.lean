import ParameterScan.Json

/-!
# Writing JSON

The text of a value on one line, without blanks. A string is written between quotes with the two
characters that need it, and all control characters, escaped. A value without a reading is null.
-/
namespace ParameterScan.Json

def hexDigit (n : Nat) : Char :=
  if n < 10 then Char.ofNat ('0'.toNat + n) else Char.ofNat ('a'.toNat + n - 10)

def escapeChar (c : Char) : List Char :=
  if c = '"' then ['\\', '"']
  else if c = '\\' then ['\\', '\\']
  else if c.toNat < 32 then
    ['\\', 'u', '0', '0', hexDigit (c.toNat / 16), hexDigit (c.toNat % 16)]
  else [c]

def quote (s : String) : String :=
  String.ofList ('"' :: s.toList.flatMap escapeChar ++ ['"'])

def Numeral.text (n : Numeral) : String :=
  Decimal.signText n.negative ++ String.ofList n.whole
    ++ (n.fraction.map fun ds => "." ++ String.ofList ds).getD ""
    ++ (n.exponent.map fun e => "e" ++ toString e).getD ""

mutual

def text : Json → String
  | .null => "null"
  | .bool b => if b then "true" else "false"
  | .number n => n.text
  | .string s => quote s
  | .array items => "[" ++ String.intercalate "," (itemTexts items) ++ "]"
  | .object fields => "\x7b" ++ String.intercalate "," (fieldTexts fields) ++ "\x7d"
  | .unreadable => "null"

def itemTexts : List Json → List String
  | [] => []
  | j :: js => text j :: itemTexts js

def fieldTexts : List (String × Json) → List String
  | [] => []
  | (name, j) :: fs => (quote name ++ ":" ++ text j) :: fieldTexts fs

end

end ParameterScan.Json
