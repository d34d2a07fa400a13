import EventRelay.Event.Time
import EventRelay.Json.Printer
import EventRelay.Json.Reader

/-!
# Events and the bodies that carry them

A request body holds any number of JSON objects, one behind the other. Each object is an event: what
happened, a few optional words about where, and a time. An event without a usable time takes the
instant of the event before it, and the first such takes the caller's default; so the default is
passed along the body (`Event.readAll`). One object that is no event spoils the whole body.
-/

namespace EventRelay

/-- What a client reports, with its time resolved. -/
structure Event where
  event : String
  host : Option String
  source : Option String
  sourcetype : Option String
  index : Option String
  time : EventTime
deriving DecidableEq, Repr

/-- Why a body holds no events. -/
inductive Event.Fault where
  /-- The body is no sequence of JSON values. -/
  | syntaxFault (fault : Json.Fault)
  /-- A value is no object. -/
  | notAnObject (value : Json)
  /-- The field with the event is absent or null. -/
  | eventMissing
  /-- The event is the empty text. -/
  | eventBlank

namespace Event

/-- What happened, as text: a text as it is, any other value in its compact form. -/
def contentOf (fields : Json) : Except Fault String :=
  match fields.get? "event" with
  | none => .error .eventMissing
  | some .null => .error .eventMissing
  | some (.text s) => if s.isEmpty then .error .eventBlank else .ok s
  | some v => .ok v.compact

/-- A field whose value is a text. -/
def textField (name : String) (fields : Json) : Option String := (fields.get? name).bind Json.text?

/-- The event that a value describes. -/
def ofJson (default : Int) (v : Json) : Except Fault Event :=
  match v with
  | .object _ =>
    match contentOf v with
    | .error f => .error f
    | .ok content =>
      .ok
        { event := content
          host := textField "host" v
          source := textField "source" v
          sourcetype := textField "sourcetype" v
          index := textField "index" v
          time := EventTime.resolve (v.get? "time") default }
  | _ => .error (.notAnObject v)

/-- The events of a body, the first of them falling back on the default time. -/
def readAll (default : Int) (body : Bytes) : Except Fault (List Event) :=
  match Json.next? body with
  | .error f => .error (.syntaxFault f)
  | .ok none => .ok []
  | .ok (some x) =>
    match ofJson default x.value with
    | .error f => .error f
    | .ok e =>
      have := x.shorter
      match readAll e.time.instant x.rest with
      | .error f => .error f
      | .ok es => .ok (e :: es)
termination_by body.length

end Event

end EventRelay
