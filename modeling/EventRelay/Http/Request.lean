import EventRelay.Http.Headers

/-!
# Requests

A request as it has been taken off its connection: the method, the path and the query as they were
written, the headers, and the body. A body comes in parts, whatever its framing, and then ends, is
cut off or never goes on. `Message` is what a client puts on a connection, and `Message.receive` the
request that comes of it.
-/

namespace EventRelay.Http

/-- How a body stops. -/
inductive Stop where
  /-- All of it has come. -/
  | whole
  /-- The connection ends too early. -/
  | cut
  /-- Nothing more comes. -/
  | stalled
deriving DecidableEq, Repr

/-- A body in parts. -/
structure Incoming where
  parts : List Bytes
  stop : Stop
deriving DecidableEq, Repr

/-- A request to be served. -/
structure Request where
  method : String
  path : String
  query : Option String
  headers : Headers
  body : Incoming

/-- Why a body is not read. -/
inductive BodyFault where
  | tooLarge
  | cut
deriving DecidableEq, Repr

/-- Joins the parts of a body, of which so many bytes were read before, but not more than the limit;
nothing if the body never stops. -/
def collect (limit : Nat) (stop : Stop) : Nat → List Bytes → Option (Except BodyFault Bytes)
  | _, [] =>
    match stop with
    | .whole => some (.ok [])
    | .cut => some (.error .cut)
    | .stalled => none
  | n, part :: parts =>
    if limit < n + part.length then some (.error .tooLarge)
    else (collect limit stop (n + part.length) parts).map (·.map (part ++ ·))

/-- Reads a body of at most so many bytes. -/
def Incoming.read (limit : Nat) (b : Incoming) : Option (Except BodyFault Bytes) :=
  collect limit b.stop 0 b.parts

/-! ## On a connection -/

/-- How a client says how long a body is. -/
inductive Framing where
  | absent
  /-- The length stands in a header. -/
  | sized (length : Nat)
  /-- Each part says its own length. -/
  | chunked (sizes : List Nat)
deriving DecidableEq, Repr

/-- The header of a framing. -/
def Framing.headers : Framing → Headers
  | .absent => []
  | .sized length => [("Content-Length", Text.Utf8.encode length.repr)]
  | .chunked _ => [("Transfer-Encoding", Text.Utf8.encode "chunked")]

/-- The parts of a body by their sizes. -/
def cutParts : List Nat → Bytes → List Bytes
  | [], _ => []
  | n :: sizes, body => body.take n :: cutParts sizes (body.drop n)

/-- A body as it arrives. A client that closes its side leaves a body that is too short cut off. -/
def Framing.incoming (body : Bytes) (closes : Bool) : Framing → Incoming
  | .absent => ⟨[], .whole⟩
  | .sized length =>
    if length ≤ body.length then ⟨[body.take length], .whole⟩
    else ⟨[body], if closes then .cut else .stalled⟩
  | .chunked sizes => ⟨cutParts sizes body, .whole⟩

/-- What a client puts on a connection. -/
structure Message where
  method : String
  target : String
  headers : Headers
  framing : Framing
  body : Bytes := []
  /-- Whether the client closes its side after the body. -/
  closes : Bool := false

/-- Whether a byte around the value of a header does not belong to it. -/
def isPadding (b : UInt8) : Bool := b = 0x20 || b = 0x09

/-- A value without the blanks around it. -/
def unpad (value : Bytes) : Bytes :=
  ((value.dropWhile isPadding).reverse.dropWhile isPadding).reverse

/-- Whether a character may stand in the name of a scheme. -/
def isSchemeChar (c : Char) : Bool := c.isAlphanum || c = '+' || c = '-' || c = '.'

/-- A target without the scheme and the server that it may name in front of the path. Behind a
server no path at all stands for the topmost one. -/
def dropServer (target : List Char) : List Char :=
  match target.span isSchemeChar with
  | (_ :: _, ':' :: '/' :: '/' :: rest) =>
    match rest.dropWhile fun c => c ≠ '/' && c ≠ '?' && c ≠ '#' with
    | '/' :: path => '/' :: path
    | rest => '/' :: rest
  | _ => target

/-- The path and the query of a target. A fragment behind them is not the server's business. -/
def splitTarget (target : String) : String × Option String :=
  match ((dropServer target.toList).takeWhile (· ≠ '#')).span (· ≠ '?') with
  | (path, []) => (String.ofList path, none)
  | (path, _ :: query) => (String.ofList path, some (String.ofList query))

example :
    splitTarget "https://[::1]:80/services?a=b#c" = ("/services", some "a=b") := by decide +kernel

example : splitTarget "http://localhost?a" = ("/", some "a") := by decide +kernel

/-- The request that comes of a message. -/
def Message.receive (m : Message) : Request where
  method := m.method
  path := (splitTarget m.target).1
  query := (splitTarget m.target).2
  headers := (m.headers ++ m.framing.headers).map fun h => (h.1, unpad h.2)
  body := m.framing.incoming m.body m.closes

end EventRelay.Http
