import EventRelay.Calendar
import EventRelay.Event.Body

/-!
# Syslog messages

An accepted event travels as one syslog line: a header, structured data and the event itself. The
priority says facility `user` and severity `informational`; what the relay knows about the event
stands in an element of its own, and the forwarding headers of the request, if there were any, in a
second.

Everything a client supplies is either cut down to what a header field may hold (`headerField`) or
quoted (`escape`), so that the line can be taken apart again.
-/

namespace EventRelay.Syslog

/-- Who forwarded the request that carried an event, as the forwarding headers say. -/
structure Origin where
  forwardedFor : Option String := none
  forwardedHost : Option String := none
  forwardedProto : Option String := none
deriving DecidableEq, Repr

/-- A named value of structured data. -/
abbrev Param := String × String

/-- What a line is made of. -/
structure Message where
  /-- The time in the header, in milliseconds since 1970. -/
  timestamp : Int
  hostname : String
  appname : String
  channel : String
  ackId : Option Nat
  event : Event
  origin : Origin

/-- The mark of an absent header field. -/
def nilField : List Char := ['-']

/-- Whether a character may stand in a header field: visible ASCII, no blank. -/
def isGraphic (c : Char) : Bool := 0x21 ≤ c.toNat && c.toNat ≤ 0x7E

/-- A text as a header field: what may not stand there is left out. -/
def headerField (s : String) : List Char :=
  match s.toList.filter isGraphic with
  | [] => nilField
  | l => l

/-- The characters of a value as they stand between its quotes. -/
def escape : List Char → List Char
  | [] => []
  | c :: l => if c = '"' ∨ c = '\\' ∨ c = ']' then '\\' :: c :: escape l else c :: escape l

/-- A parameter with the blank in front of it. -/
def paramChars (p : Param) : List Char :=
  ' ' :: (p.1.toList ++ '=' :: '"' :: (escape p.2.toList ++ ['"']))

/-- An element: its name and its parameters in brackets. -/
def elementChars (id : String) (params : List Param) : List Char :=
  '[' :: (id.toList ++ params.flatMap paramChars ++ [']'])

/-- The parameters whose values are present. -/
def present (params : List (String × Option String)) : List Param :=
  params.filterMap fun p => p.2.map fun v => (p.1, v)

/-- The name of the element with what the relay knows. -/
def metadataId : String := "hec_metadata@48577"

/-- The name of the element with the forwarding headers. -/
def originId : String := "hec_origin@48577"

/-- The parameters that the forwarding headers give. -/
def Origin.params (o : Origin) : List Param :=
  present
    [("X-Forwarded-For", o.forwardedFor), ("X-Forwarded-Host", o.forwardedHost),
      ("X-Forwarded-Proto", o.forwardedProto)]

namespace Message

/-- What the relay knows about the event. -/
def metadata (m : Message) : List Param :=
  present
    [("channel", some m.channel), ("ack_id", m.ackId.map toString),
      ("time_source", some m.event.time.source.word),
      ("time_parsed", some (if m.event.time.parsed then "true" else "false")),
      ("time", some (toString m.event.time.instant)), ("host", m.event.host),
      ("source", m.event.source), ("sourcetype", m.event.sourcetype), ("index", m.event.index)]

/-- The time in the header, absent outside the calendar. -/
def stampField (m : Message) : List Char := (Calendar.stamp? m.timestamp).getD nilField

/-- Priority, version and the header fields, each with a blank behind it. -/
def headerChars (m : Message) : List Char :=
  "<14>1 ".toList ++ m.stampField ++ ' ' :: (headerField m.hostname ++ ' ' ::
    (headerField m.appname ++ ' ' :: (nilField ++ ' ' :: (nilField ++ [' ']))))

/-- The element with the forwarding headers, left out when there were none. -/
def originChars (m : Message) : List Char :=
  match m.origin.params with
  | [] => []
  | params => elementChars originId params

/-- The line, as characters. -/
def chars (m : Message) : List Char :=
  m.headerChars ++ elementChars metadataId m.metadata ++ m.originChars ++
    ' ' :: m.event.event.toList

/-- The line. -/
def line (m : Message) : String := String.ofList m.chars

end Message

end EventRelay.Syslog
