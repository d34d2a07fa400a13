import EventRelay.Ack.Registry

/-!
# Operations on the registry as data

What clients, the sweeper and the clock do to a registry, one value for each thing done, so that a
history is a list. `Operation.run` does one of them and `runAll` a history; the answers come with
the registry that is left.
-/

namespace EventRelay.Ack

/-- One thing done to a registry. -/
inductive Operation where
  | ensureSession (token : String)
  | ensureChannel (token channel : String)
  | nextAckId (token channel : String)
  | registerAck (token channel : String) (id : Nat)
  | markAcknowledged (token channel : String) (id : Nat)
  | isAcknowledged (token channel : String) (id : Nat)
  | deleteAck (token channel : String) (id : Nat)
  | listAcks (token channel : String)
  | ackCount (token channel : String)
  | report (token channel : String) (query : Json)
  | sweep
  /-- Time passes. -/
  | advance (ms : Nat)

/-- What an operation answers. -/
inductive Answer where
  | done
  | refused (refusal : Refusal)
  | id (id : Nat)
  | flag (b : Bool)
  | acks (l : List (Nat × Ack))
  | count (n : Nat)
  | statuses (s : Statuses)
  | swept (s : Sweep)

/-- The answer of an operation that may be refused. -/
def Answer.ofExcept {α : Type} (f : α → Answer) : Except Refusal α → Answer
  | .ok a => f a
  | .error e => .refused e

namespace Operation

/-- The token that an operation names. -/
def token? : Operation → Option String
  | .ensureSession t | .ensureChannel t _ | .nextAckId t _ | .registerAck t _ _
  | .markAcknowledged t _ _ | .isAcknowledged t _ _ | .deleteAck t _ _ | .listAcks t _
  | .ackCount t _ | .report t _ _ => some t
  | .sweep | .advance _ => none

/-- Does one thing to a registry. -/
def run (op : Operation) (r : Registry) : Answer × Registry :=
  match op with
  | .ensureSession t =>
    let x := r.ensureSession t
    (.ofExcept (fun _ => .done) x.1, x.2)
  | .ensureChannel t c =>
    let x := r.ensureChannel t c
    (.ofExcept (fun _ => .done) x.1, x.2)
  | .nextAckId t c =>
    let x := r.nextAckId t c
    (.ofExcept .id x.1, x.2)
  | .registerAck t c id =>
    let x := r.registerAck t c id
    (.ofExcept (fun _ => .done) x.1, x.2)
  | .markAcknowledged t c id =>
    let x := r.markAcknowledged t c id
    (.flag x.1, x.2)
  | .isAcknowledged t c id =>
    let x := r.isAcknowledged t c id
    (.flag x.1, x.2)
  | .deleteAck t c id =>
    let x := r.deleteAck t c id
    (.flag x.1, x.2)
  | .listAcks t c =>
    let x := r.listAcks t c
    (.acks x.1, x.2)
  | .ackCount t c =>
    let x := r.ackCount t c
    (.count x.1, x.2)
  | .report t c query =>
    let x := r.report t c query
    (.ofExcept .statuses x.1, x.2)
  | .sweep =>
    let x := r.sweep
    (.swept x.1, x.2)
  | .advance ms => (.done, r.advance ms)

/-- Does one thing after another; the answers stand in the same order. -/
def runAll : List Operation → Registry → List Answer × Registry
  | [], r => ([], r)
  | op :: ops, r =>
    let x := op.run r
    let rest := runAll ops x.2
    (x.1 :: rest.1, rest.2)

end Operation

end EventRelay.Ack
