import EventRelay.Http.Request
import EventRelay.Http.Response
import EventRelay.Service.Basic

/-!
# The server

Requests by method and path: three paths take events, one takes queries for acknowledgements, one
tells that the relay is alive, and there is nothing else. A request with a body is checked in a
fixed order, headers, then body, then what the service makes of it, and the first thing amiss is the
answer. Until the service is reached, nothing has changed.
-/

namespace EventRelay.Http

/-- What a method and a path stand for. -/
inductive Route where
  | events
  | acks
  | health
deriving DecidableEq, Repr

/-- The route of a request; the method and the path must match to the letter. -/
def Route.of? (method path : String) : Option Route :=
  if method = "POST" then
    if path = "/services/collector" ∨ path = "/services/collector/event" ∨
        path = "/services/collector/event/1.0" then some .events
    else if path = "/services/collector/ack" then some .acks
    else none
  else if method = "GET" ∧ path = "/services/collector/health" then some .health
  else none

/-- A service with the largest body that it takes. -/
structure Server (σ : Type) where
  service : Service σ
  maxBody : Nat

namespace Server

/-- What is done for a route, as the client is told when it fails. -/
def task : Route → String
  | .acks => "Error processing ack request"
  | _ => "Error processing events"

/-- The response to a body that is not read. -/
def bodyRefusal : BodyFault → Response
  | .tooLarge => tooLarge "Error reading request body"
  | .cut => .message 400 6 "Error reading request body: error reading a body from connection"

/-- The body of a request, or the response to a request that is refused for its length or body;
nothing if the body never stops. -/
def readBody (limit : Nat) (route : Route) (r : Request) : Option (Except Response Bytes) :=
  match r.headers.refusal? limit (task route) with
  | some response => some (.error response)
  | none => (r.body.read limit).map fun x => x.mapError bodyRefusal

/-- What a request says about its sender. -/
def caller (r : Request) : Service.Caller where
  token := r.headers.token?
  channel := r.headers.channel? r.query

variable {σ : Type} [Delivery.Transport σ]

/-- Takes events. -/
def takeEvents (rounds : Nat) (now : Int) (r : Request) (body : Bytes) (s : Server σ) :
    Option (Response × Server σ) :=
  (s.service.sendEvents rounds now (caller r) body r.headers.origin).map fun x =>
    match x.1 with
    | .ok receipt => (.json 200 receipt.toJson, { s with service := x.2 })
    | .error f => (.ofFault f, { s with service := x.2 })

/-- Answers a query. -/
def answerQuery (r : Request) (body : Bytes) (s : Server σ) : Response × Server σ :=
  let x := s.service.getAcks (caller r) body
  match x.1 with
  | .ok statuses => (.json 200 (Service.statusesJson statuses), { s with service := x.2 })
  | .error f => (.ofFault f, { s with service := x.2 })

/-- Serves a request at the given time; nothing if it never comes to an end. -/
def handle (rounds : Nat) (now : Int) (r : Request) (s : Server σ) :
    Option (Response × Server σ) :=
  match Route.of? r.method r.path with
  | none => some (.notFound, s)
  | some .health => some (.message 200 17 "HEC is healthy", s)
  | some .events =>
    match readBody s.maxBody .events r with
    | none => none
    | some (.error response) => some (response, s)
    | some (.ok body) => takeEvents rounds now r body s
  | some .acks =>
    match readBody s.maxBody .acks r with
    | none => none
    | some (.error response) => some (response, s)
    | some (.ok body) => some (answerQuery r body s)

end Server

end EventRelay.Http
