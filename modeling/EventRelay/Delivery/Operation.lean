import EventRelay.Delivery.Sender

/-!
# Histories of a sender

What is done to a sender, as data: batches are sent, each by a caller that waits as long as it
likes, and the sender is closed. A history is connecting, whatever comes of it, and then one
operation after another. A caller that goes away leaves the sender to the next one as it is; nobody
goes away from a close.
-/

namespace EventRelay.Delivery.Sender

/-- One thing done to a sender. -/
inductive Operation where
  | send (patience : Patience) (messages : List Bytes)
  | close

/-- What an operation answers, absent when its caller went away. -/
abbrev Answer := Option (Except Fault Unit)

/-- The answer of an outcome. -/
def answer? {α σ : Type} : Outcome α σ → Option α
  | .returned _ a _ => some a
  | .abandoned _ => none

namespace Operation

/-- What a closed sender answers. -/
def whenClosed : Operation → Answer
  | .send _ _ => some (.error .closed)
  | .close => some (.ok ())

variable {σ : Type} [Transport σ]

/-- Does one thing; nothing if it never comes to an end. -/
def run (rounds : Nat) (s : Sender σ) : Operation → Option (Result σ)
  | .send p messages => s.send rounds p messages
  | .close =>
    match s.close with
    | .returned w _ s => some (.returned w (.ok ()) s)
    | .abandoned _ => none

/-- Does one thing after another; the answers stand in the same order. -/
def runAll (rounds : Nat) : List Operation → Sender σ → Option (List Answer × Sender σ)
  | [], s => some ([], s)
  | op :: ops, s =>
    match op.run rounds s with
    | none => none
    | some x => (runAll rounds ops x.state).map fun y => (answer? x :: y.1, y.2)

/-- Connects a transport, with a caller who may go away, and then does one thing after another. -/
def history (connectRounds rounds : Nat) (policy : RetryPolicy) (p : Patience)
    (ops : List Operation) (t : σ) : Option (List Answer × Sender σ) :=
  (establish p connectRounds 0 {} { transport := t, policy }).bind fun x =>
    runAll rounds ops x.state

end Operation

end EventRelay.Delivery.Sender
