import EventRelay.Ack.Statuses

/-!
# The registry of acknowledgements

A client that sends on a channel is told an id for each event and asks later whether the event has
arrived. The registry keeps what is needed to answer: for each token a session, in it the channels,
and in each channel the ids that are waiting to be asked about. An id is shown once: reporting it
forgets it, whatever its status.

Two limits bound the registry. A new session is refused when there are too many, and a new id when
its channel holds too many; what exists already is never refused. Two ages bound how long it
remembers: `sweep` forgets sessions that nobody has used and ids that nobody has asked about.

Every operation that names a token counts as use of its session, also one that fails later on, so an
operation answers with the registry that it leaves behind in all cases. The clock is a number of
milliseconds inside the registry and moves only by `advance`.
-/

namespace EventRelay

/-- An id that waits to be asked about. -/
structure Ack where
  id : Nat
  /-- Whether the event has arrived. -/
  acknowledged : Bool
  /-- When the id was registered. -/
  registeredAt : Nat
deriving DecidableEq, Repr

namespace Ack

/-- Values by key, the keys in order. -/
abbrev Table (α β : Type) [Ord α] := Std.ExtTreeMap α β compare

/-- The ids of one channel. -/
structure Channel where
  /-- The id that the next event gets. Ids do not end here; a word of 64 bits holds those of the
  first `2^64` events. -/
  nextId : Nat := 0
  acks : Table Nat Ack := ∅

/-- What is kept for one token. -/
structure Session where
  /-- When the token was last used. -/
  lastAccess : Nat
  channels : Table String Channel := ∅

/-- How much the registry holds and how long it remembers, in milliseconds. -/
structure Limits where
  maxSessions : Nat := 1000000
  /-- The most ids that one channel holds. -/
  maxAcks : Nat := 1000000
  maxAckAge : Nat := 20000
  maxSessionAge : Nat := 30000
deriving DecidableEq, Repr

/-- What there can be too many of. -/
inductive Capacity where
  | sessions
  | acks
deriving DecidableEq, Repr

/-- Why an operation is refused. -/
inductive Refusal where
  /-- A limit is reached. -/
  | busy (capacity : Capacity) (limit : Nat)
  | sessionNotFound
  | channelNotFound
  /-- A query names something that is no id. -/
  | invalidId (value : String)
deriving DecidableEq, Repr

/-- The singular of what there are too many of. -/
def Capacity.word : Capacity → String
  | .sessions => "session"
  | .acks => "ack"

/-- The words for a refusal. -/
def Refusal.message : Refusal → String
  | .busy capacity limit => s!"Server is busy: {capacity.word} limit of {limit} reached"
  | .sessionNotFound => "Session not found"
  | .channelNotFound => "Channel not found"
  | .invalidId value => s!"Invalid ack id: {value}"

/-- Whether a refusal may pass with time. -/
def Refusal.isBusy : Refusal → Bool
  | .busy _ _ => true
  | _ => false

/-- What a sweep has forgotten: sessions, and ids of the sessions that remain. -/
structure Sweep where
  sessions : Nat
  acks : Nat
deriving DecidableEq, Repr

namespace Channel

/-- Issues the next id. -/
def issue (c : Channel) : Nat × Channel := (c.nextId, { c with nextId := c.nextId + 1 })

/-- Starts to wait for an id. An id that is there already starts anew and is never refused. -/
def register (limit now id : Nat) (c : Channel) : Except Refusal Unit × Channel :=
  if (c.acks[id]?).isNone ∧ limit ≤ c.acks.size then (.error (.busy .acks limit), c)
  else (.ok (), { c with acks := c.acks.insert id ⟨id, false, now⟩ })

/-- Notes that an event has arrived; false for an id that is not waiting. -/
def acknowledge (id : Nat) (c : Channel) : Bool × Channel :=
  match c.acks[id]? with
  | some a => (true, { c with acks := c.acks.insert id { a with acknowledged := true } })
  | none => (false, c)

/-- The status of an id, false for one that is not waiting. -/
def status (id : Nat) (c : Channel) : Bool := (c.acks[id]?.map Ack.acknowledged).getD false

/-- Forgets an id; false for one that is not waiting. -/
def forget (id : Nat) (c : Channel) : Bool × Channel :=
  ((c.acks[id]?).isSome, { c with acks := c.acks.erase id })

/-- Reads the statuses of ids and forgets each as it is read. -/
def report : List Int → Statuses → Channel → Statuses × Channel
  | [], found, c => (found, c)
  | .ofNat id :: ids, found, c =>
    report ids (found.insert id (c.status id)) (c.forget id).2
  | .negSucc n :: ids, found, c => report ids (found.insert (.negSucc n) false) c

/-- The channel without the ids registered too long ago. -/
def expire (now maxAge : Nat) (c : Channel) : Channel :=
  { c with acks := c.acks.filter fun _ a => now - a.registeredAt ≤ maxAge }

end Channel

namespace Session

/-- How many ids wait in all channels together. -/
def ackCount (s : Session) : Nat := s.channels.foldl (fun n _ c => n + c.acks.size) 0

/-- The session without the ids registered too long ago. -/
def expire (now maxAge : Nat) (s : Session) : Session :=
  { s with channels := s.channels.map fun _ c => c.expire now maxAge }

end Session

/-- The sessions of all tokens, the limits that they keep to, and the time. -/
structure Registry where
  limits : Limits := {}
  /-- The time in milliseconds. -/
  now : Nat := 0
  sessions : Table String Session := ∅

namespace Registry

/-- Lets time pass. -/
def advance (ms : Nat) (r : Registry) : Registry := { r with now := r.now + ms }

/-- The number of sessions. -/
def sessionCount (r : Registry) : Nat := r.sessions.size

/-- A channel of a token. -/
def channel? (token channel : String) (r : Registry) : Option Channel :=
  (r.sessions[token]?).bind fun s => s.channels[channel]?

/-- Puts a session in its place, used just now. -/
def put (token : String) (s : Session) (r : Registry) : Registry :=
  { r with sessions := r.sessions.insert token { s with lastAccess := r.now } }

/-- The session of a token, a new one if there is none and room for one. -/
def session (token : String) (r : Registry) : Except Refusal Session :=
  match r.sessions[token]? with
  | some s => .ok s
  | none =>
    if r.limits.maxSessions ≤ r.sessions.size then .error (.busy .sessions r.limits.maxSessions)
    else .ok { lastAccess := r.now }

/-- Uses the session of a token, which is opened if need be. -/
def ensureSession (token : String) (r : Registry) : Except Refusal Unit × Registry :=
  match r.session token with
  | .ok s => (.ok (), r.put token s)
  | .error e => (.error e, r)

/-- Changes a channel that is opened if need be. -/
def onChannel {α : Type} (token channel : String) (f : Channel → Except Refusal α × Channel)
    (r : Registry) : Except Refusal α × Registry :=
  match r.session token with
  | .ok s =>
    let x := f ((s.channels[channel]?).getD {})
    (x.1, r.put token { s with channels := s.channels.insert channel x.2 })
  | .error e => (.error e, r)

/-- Changes a channel that exists; where there is none, only the session is used. -/
def onExisting {α : Type} (token channel : String) (absent : α) (f : Channel → α × Channel)
    (r : Registry) : α × Registry :=
  match r.sessions[token]? with
  | none => (absent, r)
  | some s =>
    match s.channels[channel]? with
    | none => (absent, r.put token s)
    | some c =>
      let x := f c
      (x.1, r.put token { s with channels := s.channels.insert channel x.2 })

/-- Uses a channel, which is opened if need be. -/
def ensureChannel (token channel : String) (r : Registry) : Except Refusal Unit × Registry :=
  r.onChannel token channel fun c => (.ok (), c)

/-- Issues the next id of a channel. -/
def nextAckId (token channel : String) (r : Registry) : Except Refusal Nat × Registry :=
  r.onChannel token channel fun c => (.ok c.issue.1, c.issue.2)

/-- Issues up to that many ids, fewer when the session is refused. -/
def nextAckIds (token channel : String) : Nat → Registry → List Nat × Registry
  | 0, r => ([], r)
  | n + 1, r =>
    let x := r.nextAckId token channel
    let rest := nextAckIds token channel n x.2
    match x.1 with
    | .ok id => (id :: rest.1, rest.2)
    | .error _ => rest

/-- Starts to wait for an id. -/
def registerAck (token channel : String) (id : Nat) (r : Registry) :
    Except Refusal Unit × Registry :=
  r.onChannel token channel (Channel.register r.limits.maxAcks r.now id)

/-- Notes that an event has arrived; false for an id that is not waiting. -/
def markAcknowledged (token channel : String) (id : Nat) (r : Registry) : Bool × Registry :=
  r.onExisting token channel false (Channel.acknowledge id)

/-- Whether an event has arrived, false for an id that is not waiting. -/
def isAcknowledged (token channel : String) (id : Nat) (r : Registry) : Bool × Registry :=
  r.onExisting token channel false fun c => (c.status id, c)

/-- Forgets an id; false for one that is not waiting. -/
def deleteAck (token channel : String) (id : Nat) (r : Registry) : Bool × Registry :=
  r.onExisting token channel false (Channel.forget id)

/-- The ids that wait in a channel, in order. -/
def listAcks (token channel : String) (r : Registry) : List (Nat × Ack) × Registry :=
  r.onExisting token channel [] fun c => (c.acks.toList, c)

/-- How many ids wait in a channel. -/
def ackCount (token channel : String) (r : Registry) : Nat × Registry :=
  r.onExisting token channel 0 fun c => (c.acks.size, c)

/-- The ids that a query names under its field of ids, or the first value there that is none. A
query without such a field names nothing. -/
def queriedIds? (query : Json) : Option (Except Refusal (List Int)) :=
  ((query.get? "acks").bind Json.array?).map fun items =>
    items.mapM fun v =>
      match v.int64? with
      | some id => .ok id
      | none => .error (.invalidId v.compact)

/-- Answers a query and forgets the ids that it names. Nothing is forgotten when any of them is no
id, and a query that names nothing does not even count as use. -/
def report (token channel : String) (query : Json) (r : Registry) :
    Except Refusal Statuses × Registry :=
  match queriedIds? query with
  | none => (.ok .empty, r)
  | some (.error e) => (.error e, r)
  | some (.ok ids) =>
    if (r.sessions[token]?).isNone then (.error .sessionNotFound, r)
    else
      r.onExisting token channel (.error .channelNotFound) fun c =>
        let x := c.report ids .empty
        (.ok x.1, x.2)

/-- The number of ids that wait in all sessions together. -/
def totalAcks (r : Registry) : Nat := r.sessions.foldl (fun n _ s => n + s.ackCount) 0

/-- The registry without the sessions that nobody has used for too long. -/
def dropIdle (r : Registry) : Registry :=
  { r with
    sessions := r.sessions.filter fun _ s => r.now - s.lastAccess ≤ r.limits.maxSessionAge }

/-- The registry without the ids that were registered too long ago. -/
def expireAcks (r : Registry) : Registry :=
  { r with sessions := r.sessions.map fun _ s => s.expire r.now r.limits.maxAckAge }

/-- Forgets idle sessions, then old ids of those that remain, and says how many of each. -/
def sweep (r : Registry) : Sweep × Registry :=
  let kept := r.dropIdle
  let swept := kept.expireAcks
  (⟨r.sessionCount - kept.sessionCount, kept.totalAcks - swept.totalAcks⟩, swept)

end Registry

end Ack

end EventRelay
