import EventRelay.Delivery.Batch
import EventRelay.Relp.Connection

/-!
# Operations on a client as data

What is done to the client of a collector, one value for each thing done, so that a history is a
list. Committing a batch is committing what is pending of it, and the answer says which messages
were confirmed. Nobody goes away from a call here.
-/

namespace EventRelay.Relp.Connection

/-- One thing done to a client. -/
inductive Operation where
  | connect
  | commit (batch : Delivery.Batch)
  | disconnect
  | tearDown

/-- What an operation answers, with the positions that it confirmed. -/
structure Answer where
  result : Except Fault Unit
  confirmed : List Nat := []

namespace Operation

variable {ν : Type} [Wire ν]

/-- Does one thing to a client. -/
def run (op : Operation) (c : Connection ν) : Answer × Connection ν :=
  match op with
  | .connect =>
    let x := c.connect
    ({ result := x.1 }, x.2)
  | .commit batch =>
    let x := c.commit batch.pending
    (⟨x.1, x.2.1⟩, x.2.2)
  | .disconnect =>
    let x := c.disconnect
    ({ result := x.1 }, x.2)
  | .tearDown => ({ result := .ok () }, c.tearDown)

/-- Does one thing after another; the answers stand in the same order. -/
def runAll : List Operation → Connection ν → List Answer × Connection ν
  | [], c => ([], c)
  | op :: ops, c =>
    let x := op.run c
    let rest := runAll ops x.2
    (x.1 :: rest.1, rest.2)

end Operation

end EventRelay.Relp.Connection
