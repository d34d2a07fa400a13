import EventRelay.Decimal.Layout
import EventRelay.Text.Numeral

/-!
# JSON values

The values that event bodies and ack queries are made of. A number keeps the kind it was written in:
an integer where the literal fits 64 bits, a binary64 value otherwise, and the two are never mixed
up afterwards. The fields of an object are kept in the order of their names, each name once; a name
that is written twice has its last value.
-/

namespace EventRelay

/-- A number as it was read. -/
inductive Json.Number where
  /-- An integer literal that fits 64 bits, signed or unsigned. -/
  | integer (z : Int)
  /-- Any other literal. -/
  | real (x : Decimal.Binary64)
deriving DecidableEq, Repr

/-- A JSON value. -/
inductive Json where
  | null
  | bool (b : Bool)
  | number (n : Json.Number)
  | text (s : String)
  | array (items : List Json)
  | object (fields : List (String × Json))
deriving Inhabited

namespace Json

/-- Puts a field in its place among fields that are ordered by name; an earlier value is lost. -/
def insertField (name : String) (value : Json) : List (String × Json) → List (String × Json)
  | [] => [(name, value)]
  | (k, v) :: rest =>
    if name < k then (name, value) :: (k, v) :: rest
    else if name = k then (name, value) :: rest
    else (k, v) :: insertField name value rest

/-- The object with the given fields, in which of two fields of one name the later counts. -/
def ofFields (fields : List (String × Json)) : Json :=
  .object (fields.foldl (fun acc f => insertField f.1 f.2 acc) [])

/-- The value of a field; nothing for a value that is no object. -/
def get? (name : String) : Json → Option Json
  | .object fields => fields.lookup name
  | _ => none

/-- The text of a text value. -/
def text? : Json → Option String
  | .text s => some s
  | _ => none

/-- The elements of an array. -/
def array? : Json → Option (List Json)
  | .array items => some items
  | _ => none

/-- The integer of an integer value that fits 64 bits in two's complement. -/
def int64? : Json → Option Int
  | .number (.integer z) => if Text.Numeral.fits64 z then some z else none
  | _ => none

end Json

end EventRelay
