import EventRelay.Delivery.Pool
import EventRelay.Service.Fault
import EventRelay.Syslog.Message

/-!
# The service

What a client can ask for: to have events delivered, and to learn which of them have arrived. A
batch of events is read, gets an id for each event if it comes on a channel, and goes out as one
batch of syslog lines; the ids are acknowledged when the whole batch has been delivered, and
forgotten when it has not. So an id is acknowledged only for an event that has arrived, and a
request that fails leaves no ids behind.

Whatever makes no sense in a request is found before the registry or a sender is touched.
-/

namespace EventRelay

/-- The registry and the senders that requests share, and how lines are signed. -/
structure Service (σ : Type) where
  registry : Ack.Registry
  pool : Delivery.Pool σ
  hostname : String := "localhost"
  appname : String := "hec-gateway"

namespace Service

/-- The channel of events that name none. -/
def defaultChannel : String := "defaultchannel"

/-- What a client is told whose events were delivered: their ids, if they have any. -/
structure Receipt where
  ackIds : List Nat
deriving DecidableEq, Repr

/-- A receipt as it is sent; without ids nothing is said of them. -/
def Receipt.toJson (r : Receipt) : Json :=
  let number (n : Nat) : Json := .number (.integer n)
  .object <|
    [("text", .text "Success"), ("code", number 0)] ++
    (match r.ackIds with
      | [] => []
      | id :: ids => [("ackID", number id), ("ackIDs", .array ((id :: ids).map number))])

/-- The answer to a query as it is sent. -/
def statusesJson (s : Ack.Statuses) : Json := .object [("acks", s.toJson)]

/-! ## Ids for a batch -/

/-- Forgets ids. -/
def release (token channel : String) (ids : List Nat) (r : Ack.Registry) : Ack.Registry :=
  ids.foldl (fun r id => (r.deleteAck token channel id).2) r

/-- Acknowledges ids. -/
def acknowledge (token channel : String) (ids : List Nat) (r : Ack.Registry) : Ack.Registry :=
  ids.foldl (fun r id => (r.markAcknowledged token channel id).2) r

/-- Issues an id and starts to wait for it. -/
def allocateOne (token channel : String) (r : Ack.Registry) :
    Except Ack.Refusal Nat × Ack.Registry :=
  let x := r.nextAckId token channel
  match x.1 with
  | .error e => (.error e, x.2)
  | .ok id =>
    let y := x.2.registerAck token channel id
    (y.1.map fun _ => id, y.2)

/-- Issues that many ids one after another; all of them are forgotten when one is refused. -/
def allocateMore (token channel : String) :
    Nat → Ack.Registry → Except Ack.Refusal (List Nat) × Ack.Registry
  | 0, r => (.ok [], r)
  | n + 1, r =>
    let x := allocateOne token channel r
    match x.1 with
    | .error e => (.error e, x.2)
    | .ok id =>
      let y := allocateMore token channel n x.2
      match y.1 with
      | .ok ids => (.ok (id :: ids), y.2)
      | .error e => (.error e, (y.2.deleteAck token channel id).2)

/-- Issues an id for each of so many events. -/
def allocate (token channel : String) (count : Nat) (r : Ack.Registry) :
    Except Ack.Refusal (List Nat) × Ack.Registry :=
  let x := r.ensureChannel token channel
  match x.1 with
  | .error e => (.error e, x.2)
  | .ok _ => allocateMore token channel count x.2

/-- The ids for a batch. Events that name no channel get none, but count as use of their session. -/
def idsFor (token : String) (channel : Option String) (count : Nat) (r : Ack.Registry) :
    Except Ack.Refusal (List Nat) × Ack.Registry :=
  match channel with
  | some channel => allocate token channel count r
  | none =>
    let x := r.ensureChannel token defaultChannel
    (x.1.map fun _ => [], x.2)

/-! ## Requests -/

/-- What a client says about a request besides its body. -/
structure Caller where
  token : Option String := none
  channel : Option String := none
deriving DecidableEq, Repr

/-- The messages of a batch, with the ids in the order of the events. -/
def messages {σ : Type} (s : Service σ) (now : Int) (channel : String) (origin : Syslog.Origin) :
    List Event → List Nat → List Syslog.Message
  | [], _ => []
  | e :: es, ids =>
    { timestamp := now, hostname := s.hostname, appname := s.appname, channel,
      ackId := ids.head?, event := e, origin } :: messages s now channel origin es ids.tail

/-- The bytes that are sent for a batch. -/
def lines (messages : List Syslog.Message) : List Bytes :=
  messages.map fun m => Text.Utf8.encode m.line

/-- The token and the events of a request, which must be there. -/
def readEvents (now : Int) (caller : Caller) (body : Bytes) : Except Fault (String × List Event) :=
  match caller.token.bind Text.nonBlank? with
  | none => .error .tokenMissing
  | some token =>
    match Event.readAll now body with
    | .error f => .error (.ofEvents body f)
    | .ok [] => .error .noData
    | .ok (e :: es) => .ok (token, e :: es)

variable {σ : Type} [Delivery.Transport σ]

/-- Delivers the events of a request at the given time; nothing if the sender never comes to an end.
-/
def sendEvents (rounds : Nat) (now : Int) (caller : Caller) (body : Bytes)
    (origin : Syslog.Origin) (s : Service σ) : Option (Except Fault Receipt × Service σ) :=
  match readEvents now caller body with
  | .error f => some (.error f, s)
  | .ok (token, events) =>
    let named := caller.channel.bind Text.nonBlank?
    let channel := named.getD defaultChannel
    let x := idsFor token named events.length s.registry
    let s := { s with registry := x.2 }
    match x.1 with
    | .error e => some (.error (.ack e), s)
    | .ok ids =>
      match s.pool.send rounds .forever (lines (s.messages now channel origin events ids)) with
      | none => none
      | some (.abandoned _) => none
      | some (.returned _ (.error f) pool) =>
        some (.error (.delivery f),
          { s with pool, registry := release token channel ids s.registry })
      | some (.returned _ (.ok _) pool) =>
        some (.ok ⟨ids⟩, { s with pool, registry := acknowledge token channel ids s.registry })

/-- Whether a byte is a blank of ASCII. -/
def isAsciiBlank (b : UInt8) : Bool := b = 0x20 || b = 0x09 || b = 0x0A || b = 0x0C || b = 0x0D

/-- The query of a request; a blank body asks nothing. -/
def readQuery (body : Bytes) : Except Fault Json :=
  if body.all isAsciiBlank then .ok .null
  else
    match Json.document body with
    | .ok v => .ok v
    | .error f => .error (.ofSyntax body f)

/-- Answers which events have arrived. -/
def getAcks (caller : Caller) (body : Bytes) (s : Service σ) :
    Except Fault Ack.Statuses × Service σ :=
  match caller.token.bind Text.nonBlank?, caller.channel.bind Text.nonBlank? with
  | none, _ => (.error .tokenMissing, s)
  | some _, none => (.error .channelMissing, s)
  | some token, some channel =>
    match readQuery body with
    | .error f => (.error f, s)
    | .ok query =>
      let x := s.registry.report token channel query
      (x.1.mapError .ack, { s with registry := x.2 })

/-- Closes every sender; nothing if that never comes to an end. -/
def closePool (s : Service σ) : Option (Service σ) :=
  match s.pool.close with
  | .returned _ _ pool => some { s with pool }
  | .abandoned _ => none

end Service

end EventRelay
