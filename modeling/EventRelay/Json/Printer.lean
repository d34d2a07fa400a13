import EventRelay.Json.Value

/-!
# Writing JSON

The compact form: no blanks, fields in the order in which the object holds them, text escaped as
little as the grammar allows. Integers are written as such and other numbers with the fewest digits
that read back, so a number shows the kind it was read as.
-/

namespace EventRelay.Json

/-- Numbers other than integers are written positionally while the exponent of the leading digit is
between -5 and 15, otherwise with a signed exponent; a tie between two shortest forms goes to the
even one. -/
def numbers : Decimal.Layout where
  plainFrom := -5
  plainBelow := 16
  expPlus := true
  tie := .even

/-- The letter that stands for a character behind a backslash. -/
def escapeLetter? (c : Char) : Option Char :=
  if c = '"' then some '"'
  else if c = '\\' then some '\\'
  else if c = '\n' then some 'n'
  else if c = '\r' then some 'r'
  else if c = '\t' then some 't'
  else if c.toNat = 0x08 then some 'b'
  else if c.toNat = 0x0C then some 'f'
  else none

/-- A character inside a quoted text: control characters must be escaped, and of the others only the
quote and the backslash are. -/
def escapeChar (c : Char) : List Char :=
  match escapeLetter? c with
  | some letter => ['\\', letter]
  | none =>
    if c.toNat < 0x20 then
      ['\\', 'u', '0', '0', Nat.digitChar (c.toNat / 16), Nat.digitChar (c.toNat % 16)]
    else [c]

/-- A text in quotes. -/
def quoted (s : String) : List Char := '"' :: (s.toList.flatMap escapeChar ++ ['"'])

/-- The text of a number. -/
def Number.chars : Number → List Char
  | .integer z => (toString z).toList
  | .real x => numbers.text x

/-- The parts one after another with commas between them. -/
def separated : List (List Char) → List Char
  | [] => []
  | [part] => part
  | part :: rest => part ++ ',' :: separated rest

mutual

/-- The compact form of a value, as characters. -/
def chars : Json → List Char
  | .null => "null".toList
  | .bool b => (if b then "true" else "false").toList
  | .number n => n.chars
  | .text s => quoted s
  | .array items => '[' :: (separated (itemChars items) ++ [']'])
  | .object fields => '{' :: (separated (fieldChars fields) ++ ['}'])

/-- The compact forms of the elements of an array. -/
def itemChars : List Json → List (List Char)
  | [] => []
  | v :: rest => v.chars :: itemChars rest

/-- The compact forms of the fields of an object. -/
def fieldChars : List (String × Json) → List (List Char)
  | [] => []
  | (k, v) :: rest => (quoted k ++ ':' :: v.chars) :: fieldChars rest

end

/-- The compact form of a value. -/
def compact (v : Json) : String := String.ofList v.chars

end EventRelay.Json
