import EventRelay.Delivery.Memory
import EventRelay.Delivery.Pool
import EventRelay.Relp.Connection
import EventRelay.Text.LetterCase
import EventRelay.Text.Numeral

/-!
# Where messages go

The transports that a configuration can name, and the pool of senders that it asks for. A name is
that of a transport in any letter case but in no other spelling. The senders of a pool stand side by
side in one block of memory, and there is no pool of more senders than such a block can hold.
-/

namespace EventRelay

open Delivery

/-- The transports by kind. -/
inductive Protocol where
  | relp
  /-- Messages are kept in memory and reach no collector. -/
  | memory
deriving DecidableEq, Repr

/-- The transport that a name stands for. -/
def Protocol.ofName? (name : String) : Option Protocol :=
  let name := Text.lowercase name
  if name = "relp" then some .relp else if name = "memory" then some .memory else none

/-- A transport of either kind. -/
inductive Endpoint (ν : Type) where
  | relp (connection : Relp.Connection ν)
  | memory (memory : Memory)

namespace Endpoint

variable {ν : Type} [Relp.Wire ν]

/-- A transport of a kind that is named, not connected yet. -/
def create (protocol host : String) (port : Nat) (wire : ν) : Except Fault (Endpoint ν) :=
  match Protocol.ofName? protocol with
  | some .relp => .ok (.relp { host, port, wire })
  | some .memory => .ok (.memory {})
  | none => .error (.unsupportedProtocol protocol)

instance : Transport (Endpoint ν) where
  target
    | relp c => Transport.target c
    | memory m => Transport.target m
  connect
    | relp c => (Transport.connect c).mapState relp
    | memory m => (Transport.connect m).mapState memory
  commit pending
    | relp c => (Transport.commit pending c).mapState relp
    | memory m => (Transport.commit pending m).mapState memory
  disconnect
    | relp c => (Transport.disconnect c).mapState relp
    | memory m => (Transport.disconnect m).mapState memory
  tearDown
    | relp c => relp (Transport.tearDown c)
    | memory m => memory (Transport.tearDown m)

end Endpoint

/-- Where and how the senders of a pool connect. -/
structure Destination where
  protocol : String
  host : String
  port : Nat
  /-- The number of senders. -/
  connections : Nat
  retry : RetryPolicy
deriving DecidableEq, Repr

/-- The most bytes that one block of memory has. -/
def blockLimit : Nat := Text.Numeral.wordSize 63 - 1

namespace Destination

/-- Why a destination has no pool. -/
inductive Failure where
  /-- The senders fit no block of memory; there is no recovery from this. -/
  | overflow
  | delivery (fault : Fault)
deriving DecidableEq, Repr

/-- The pool of a destination, all its senders connected; nothing if that never comes to an end. A
sender takes `size` bytes, and the block for all of them is asked for before the first connects. -/
def pool {ν : Type} [Relp.Wire ν] (size rounds : Nat) (d : Destination) (wire : ν) :
    Option (Except Failure (Pool (Endpoint ν))) :=
  if blockLimit < size * d.connections then some (.error .overflow)
  else if d.connections = 0 then some (.error (.delivery .emptyPool))
  else
    match Endpoint.create d.protocol d.host d.port wire with
    | .error e => some (.error (.delivery e))
    | .ok endpoint =>
      (Pool.connect rounds d.retry (List.replicate d.connections endpoint)).map
        (·.mapError .delivery)

end Destination

end EventRelay
