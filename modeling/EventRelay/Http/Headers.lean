import EventRelay.Syslog.Message
import EventRelay.Text.Blank
import EventRelay.Text.LetterCase
import EventRelay.Text.Utf8

/-!
# Headers

The headers of a request, in the order in which they were sent. Names are compared without regard to
letter case, and of several headers with one name the first counts. A value is bytes; it is text if
all of them are visible, blanks or tabs, and a value that is no text says nothing.

What the relay reads from headers is who sends (`token?`), on which channel (`channel?`), and who
forwarded the request (`origin`).
-/

namespace EventRelay.Http

/-- Headers with their values. -/
abbrev Headers := List (String × Bytes)

/-- Whether a byte may stand in a value that is text. -/
def isTextByte (b : UInt8) : Bool := (0x20 ≤ b && b ≤ 0x7E) || b = 0x09

/-- The text of a value. -/
def valueText? (value : Bytes) : Option String :=
  if value.all isTextByte then Text.Utf8.decode? value else none

namespace Headers

/-- The value of the first header with a name. -/
def get? (name : String) (h : Headers) : Option Bytes :=
  (h.find? fun e => Text.asciiLower e.1 = Text.asciiLower name).map Prod.snd

/-- The value of the first header with a name, as text. -/
def text? (name : String) (h : Headers) : Option String := (h.get? name).bind valueText?

/-- The word in front of a token that names the scheme. -/
def scheme : List Char := "splunk ".toList

/-- A value without the scheme in front of it, if the scheme is there in any letter case. -/
def dropScheme (value : List Char) : List Char :=
  if (value.take scheme.length).map Text.asciiLowerChar = scheme then value.drop scheme.length
  else value

/-- The token that a value carries, with the scheme in front of it or without. -/
def tokenOf (value : String) : String :=
  Text.trim (String.ofList (dropScheme (Text.trimStart value.toList)))

/-- The token of a request. -/
def token? (h : Headers) : Option String := (h.text? "authorization").map tokenOf

/-- The parameters of a query, as they are written. A part without an equals sign is none. -/
def parameters (query : String) : List (List Char × List Char) :=
  (query.toList.splitOn '&').filterMap fun part =>
    match part.span (· ≠ '=') with
    | (_, []) => none
    | (name, _ :: value) => some (name, value)

/-- The channel that a query names: the value of its first parameter of that name, if it has any. -/
def channelOfQuery? (query : String) : Option String :=
  match (parameters query).lookup "channel".toList with
  | none => none
  | some [] => none
  | some value => some (String.ofList value)

/-- The channel of a request, from its header or else from its query. -/
def channel? (h : Headers) (query : Option String) : Option String :=
  match (h.text? "x-splunk-request-channel").bind Text.nonBlank? with
  | some channel => some channel
  | none => query.bind channelOfQuery?

/-- Who forwarded a request. -/
def origin (h : Headers) : Syslog.Origin where
  forwardedFor := h.text? "x-forwarded-for"
  forwardedHost := h.text? "x-forwarded-host"
  forwardedProto := h.text? "x-forwarded-proto"

end Headers

end EventRelay.Http
