import EventRelay.Delivery.Transport
import EventRelay.Relp.Wire
import Std.Data.ExtTreeMap

/-!
# The client of a collector

A session starts with an `open` command, carries one `syslog` command for each message and ends with
`close`. The collector answers a command by a `rsp` frame with the same transaction number and a
status. Numbers start from 1 in every session and rise by one with every command, whether it could
be written or not.

A message is confirmed by the first answer to its number, if the answer reports success; answers to
unknown numbers and other frames are passed over. So the order of the answers does not matter, and
an answer from an earlier command or session confirms nothing.
-/

namespace EventRelay.Relp

/-- The last transaction number before they start again. -/
def maxTxnr : Nat := 999999999

/-- What the client says of itself when it opens a session. -/
def offers : Bytes :=
  Text.Utf8.encode "relp_version=0\nrelp_software=hec-gateway,0.1.0\ncommands=syslog"

/-- A client of one collector. -/
structure Connection (ν : Type) where
  host : String
  port : Nat
  wire : ν
  connected : Bool := false
  /-- The transaction number of the next command. -/
  nextTxnr : Nat := 1

/-- The command of a frame by which the collector says that it closes. -/
def closing : String := "serverclose"

/-- The command of an answer. -/
def answering : String := "rsp"

section Waiting

variable {ν : Type} [Wire ν]

/-- Waits for the answer to a command, which must report success. -/
def awaitAnswer (command : String) (txnr : Nat) (w : ν) : Except Fault Unit × ν :=
  match h : Wire.read w with
  | (.error e, w') => (.error e, w')
  | (.ok f, w') =>
    have := Wire.unread_read h
    if f.command = closing then (.error .serverClose, w')
    else if f.command = answering ∧ f.txnr = txnr then
      (if f.isSuccess then .ok () else .error (.violation (.rejected command f.data)), w')
    else awaitAnswer command txnr w'
termination_by Wire.unread w

/-- The commands that wait for an answer: by transaction number the position of the message. -/
abbrev InFlight := Std.ExtTreeMap Nat Nat compare

/-- Waits for the answers to all commands; with the positions that were confirmed, in the order of
the answers. -/
def settle (inFlight : InFlight) (confirmed : List Nat) (w : ν) :
    Except Fault Unit × List Nat × ν :=
  if inFlight.isEmpty then (.ok (), confirmed, w)
  else
    match h : Wire.read w with
    | (.error e, w') => (.error e, confirmed, w')
    | (.ok f, w') =>
      have := Wire.unread_read h
      if f.command = closing then (.error .serverClose, confirmed, w')
      else if f.command = answering then
        match inFlight[f.txnr]? with
        | some position =>
          settle (inFlight.erase f.txnr)
            (if f.isSuccess then confirmed ++ [position] else confirmed) w'
        | none => settle inFlight confirmed w'
      else settle inFlight confirmed w'
termination_by Wire.unread w

end Waiting

namespace Connection

variable {ν : Type} [Wire ν]

/-- The number of the next command, and the client after it has been taken. -/
def takeTxnr (c : Connection ν) : Nat × Connection ν :=
  (c.nextTxnr, { c with nextTxnr := if maxTxnr ≤ c.nextTxnr then 1 else c.nextTxnr + 1 })

/-- Frames that carry messages under fresh numbers, and the messages by number. When the numbers
start again within the batch, a number stands for the last message that got it. -/
def number : List (Nat × Bytes) → Connection ν → (List Frame × InFlight) × Connection ν
  | [], c => (([], ∅), c)
  | (position, payload) :: rest, c =>
    let x := c.takeTxnr
    let y := number rest x.2
    ((⟨x.1, "syslog", payload⟩ :: y.1.1, y.1.2.insertIfNew x.1 position), y.2)

/-- Sends frames if there is a connection. -/
def write (frames : List Frame) (c : Connection ν) : Except Fault Unit × Connection ν :=
  if c.connected then
    let x := Wire.write frames c.wire
    (x.1, { c with wire := x.2 })
  else (.error .notConnected, c)

/-- Sends a command and waits for success. -/
def exchange (command : String) (data : Bytes) (c : Connection ν) :
    Except Fault Unit × Connection ν :=
  let x := c.takeTxnr
  match x.2.write [⟨x.1, command, data⟩] with
  | (.error e, c) => (.error e, c)
  | (.ok _, c) =>
    let y := awaitAnswer command x.1 c.wire
    (y.1, { c with wire := y.2 })

/-- Drops the connection, if there is one. -/
def tearDown (c : Connection ν) : Connection ν :=
  if c.connected then { c with connected := false, wire := Wire.hangUp c.wire } else c

/-- Dials and opens a session; a connection on which that failed is still there. -/
def startSession (c : Connection ν) : Except Fault Unit × Connection ν :=
  let x := Wire.dial c.tearDown.wire
  let c := { c.tearDown with wire := x.2 }
  match x.1 with
  | .error e => (.error e, c)
  | .ok _ => exchange "open" offers { c with connected := true, nextTxnr := 1 }

/-- Drops a connection on which opening a session failed. -/
def keepSession : Except Fault Unit × Connection ν → Except Fault Unit × Connection ν
  | (.ok _, c) => (.ok (), c)
  | (.error e, c) => (.error e, c.tearDown)

/-- Connects. Without a session there is no connection either. -/
def connect (c : Connection ν) : Except Fault Unit × Connection ν := keepSession c.startSession

/-- Sends pending messages and waits for the answers; with the positions that were confirmed. -/
def commit (pending : List (Nat × Bytes)) (c : Connection ν) :
    Except Fault Unit × List Nat × Connection ν :=
  let x := number pending c
  match x.2.write x.1.1 with
  | (.error e, c) => (.error e, [], c)
  | (.ok _, c) =>
    let y := settle x.1.2 [] c.wire
    (y.1, y.2.1, { c with wire := y.2.2 })

/-- Closes the session; a collector that hangs up over it has closed it too. The connection is still
there. -/
def endSession (c : Connection ν) : Except Fault Unit × Connection ν :=
  match exchange "close" [] c with
  | (.error .serverClose, c) => (.ok (), c)
  | x => x

/-- Closes the session and drops the connection, whatever came of closing. -/
def disconnect (c : Connection ν) : Except Fault Unit × Connection ν :=
  let x := c.endSession
  (x.1, x.2.tearDown)

/-- A call with its delay; `left` is what a caller leaves behind who does not wait. -/
def call {α β : Type} (result : Except Fault α) (answer : β) (c left : Connection ν) :
    Delivery.Call β (Connection ν) :=
  match result with
  | .ok _ => .now answer c
  | .error e => .returns e.delay answer c left

instance : Delivery.Transport (Connection ν) where
  target c := s!"relp://{c.host}:{c.port}"
  connect c :=
    let x := c.startSession
    call x.1 x.1.isOk (keepSession x).2 x.2
  commit pending c :=
    let x := c.commit pending
    call x.1 ⟨x.2.1, x.1.isOk⟩ x.2.2 x.2.2
  disconnect c :=
    let x := c.endSession
    call x.1 x.1.isOk x.2.tearDown x.2
  tearDown := tearDown

end Connection

end EventRelay.Relp
