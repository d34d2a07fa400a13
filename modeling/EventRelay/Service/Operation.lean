import EventRelay.Ack.Operation
import EventRelay.Service.Basic

/-!
# Histories of a service

What is done to a service, as data: requests of clients, things done to the registry by itself, the
clock among them, and the closing of the senders. A history is a list of operations, done one after
another.
-/

namespace EventRelay.Service

/-- One thing done to a service. -/
inductive Operation where
  /-- A client sends events; `now` is the time that they are stamped with. -/
  | sendEvents (now : Int) (caller : Caller) (body : Bytes) (origin : Syslog.Origin)
  | getAcks (caller : Caller) (body : Bytes)
  | registry (operation : Ack.Operation)
  | closePool

/-- What an operation answers. -/
inductive Answer where
  | sent (receipt : Receipt)
  | statuses (statuses : Ack.Statuses)
  | failed (fault : Fault)
  | registry (answer : Ack.Answer)
  | closed

variable {σ : Type} [Delivery.Transport σ]

/-- Does one thing; nothing if a sender never comes to an end. -/
def Operation.run (rounds : Nat) (s : Service σ) : Operation → Option (Answer × Service σ)
  | .sendEvents now caller body origin =>
    (s.sendEvents rounds now caller body origin).map fun x =>
      match x.1 with
      | .ok receipt => (.sent receipt, x.2)
      | .error f => (.failed f, x.2)
  | .getAcks caller body =>
    let x := s.getAcks caller body
    match x.1 with
    | .ok statuses => some (.statuses statuses, x.2)
    | .error f => some (.failed f, x.2)
  | .registry operation =>
    let x := operation.run s.registry
    some (.registry x.1, { s with registry := x.2 })
  | .closePool => s.closePool.map fun s => (.closed, s)

/-- Does one thing after another; the answers stand in the same order. -/
def Operation.runAll (rounds : Nat) : List Operation → Service σ → Option (List Answer × Service σ)
  | [], s => some ([], s)
  | op :: ops, s =>
    match op.run rounds s with
    | none => none
    | some (a, s) => (runAll rounds ops s).map fun x => (a :: x.1, x.2)

end EventRelay.Service
