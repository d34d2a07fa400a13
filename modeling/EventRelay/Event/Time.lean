import EventRelay.Decimal.Literal
import EventRelay.Json.Value
import EventRelay.Text.Blank

/-!
# The time of an event

An event says its time as a number, as text, or not at all; whatever it says becomes a whole
instant, together with a note where the instant came from. `usable?` is what the event itself says,
if that can be used, and `resolve` falls back on a default that the caller picks. So a reported
instant never depends on the default, and a generated one is the default.

A fractional number gives up its point: the shortest text of 1426279439.123 read without the point
is 1426279439123. A text is read as an integer if it is one, otherwise as a decimal whose fraction
is cut off; the text of zero counts as saying nothing.
-/

namespace EventRelay

/-- Where an instant came from. -/
inductive EventTime.Source where
  | reported
  | generated
deriving DecidableEq, Repr

/-- An instant with its provenance. -/
structure EventTime where
  instant : Int
  /-- Whether the event supplied a usable time. -/
  parsed : Bool
  source : EventTime.Source
deriving DecidableEq, Repr

namespace EventTime

/-- The word for a source. -/
def Source.word : Source → String
  | .reported => "reported"
  | .generated => "generated"

/-- An instant that the event supplied. -/
def reported (instant : Int) : EventTime := ⟨instant, true, .reported⟩

/-- An instant filled in for the event. -/
def generated (default : Int) : EventTime := ⟨default, false, .generated⟩

/-- Times are written positionally from 10^-4 up to below 10^16, otherwise with an exponent without
a plus; a tie between two shortest forms goes up. -/
def plainTime : Decimal.Layout where
  plainFrom := -4
  plainBelow := 16
  expPlus := false
  tie := .up

/-- The shortest text of a number read without its point; nothing where the text has an exponent or
the digits do not fit 64 bits. -/
def withoutPoint? (x : Decimal.Binary64) : Option Int :=
  Text.Numeral.int64? ((plainTime.text x).filter (· != '.'))

/-- The instant that a text writes, as an integer or as a decimal without its fraction. -/
def ofText? (s : String) : Option Int :=
  let l := (Text.trim s).toList
  match Text.Numeral.int64? l with
  | some z => some z
  | none =>
    match (Decimal.Literal.ofText? l).bind Decimal.Literal.value? with
    | some x => if x.truncate.natAbs < Text.Numeral.wordSize 63 then some x.truncate else none
    | none => none

/-- The instant that a time value says, if it can be used. -/
def usable? : Json → Option Int
  | .number (.real x) => withoutPoint? x
  | .number (.integer z) => (Json.number (.integer z)).int64?
  | .text s => (ofText? s).filter (· ≠ 0)
  | _ => none

/-- The time of an event: what its time value says, or the default. -/
def resolve (value : Option Json) (default : Int) : EventTime :=
  match value.bind usable? with
  | some instant => reported instant
  | none => generated default

end EventTime

end EventRelay
