import EventRelay.Delivery.Transport

/-!
# Reliable senders

A sender owns a transport and hides its failures: `send` commits a batch again and again, each time
on a fresh connection and with what is still pending, until everything is confirmed or the retry
policy is exhausted. Whether everything is confirmed decides, not how the last commit ended.

A caller may go away in the middle. What the sender was doing shows in its state, and a sender whose
commit was interrupted tears the connection down before it does anything else, since half a message
may have been written. A closed sender stays closed.

Without a bound on the attempts nothing bounds the loops. They run for a given number of rounds, and
an answer of `none` says that the sender was still trying then; more rounds never change an answer.
-/

namespace EventRelay.Delivery

/-- How long to wait between attempts and how many to make. -/
structure RetryPolicy where
  /-- In milliseconds. -/
  interval : Nat := 500
  /-- Without a bound the attempts go on until one succeeds. -/
  maxAttempts : Option Nat := none
deriving DecidableEq, Repr

/-- Whether that many attempts are enough. There is a first attempt in any case. -/
def RetryPolicy.exhausted (p : RetryPolicy) (attempts : Nat) : Bool :=
  match p.maxAttempts with
  | some m => m ≤ attempts
  | none => false

/-- Why messages are not delivered. -/
inductive Fault where
  /-- The name is that of no transport. -/
  | unsupportedProtocol (name : String)
  | retriesExhausted (attempts : Nat)
  | closed
  | emptyPool
deriving DecidableEq, Repr

/-- The words for a fault. -/
def Fault.message : Fault → String
  | .unsupportedProtocol name => s!"Invalid connection type: {name}"
  | .retriesExhausted attempts => s!"Gave up after {attempts} attempts"
  | .closed => "Sender is closed"
  | .emptyPool => "Sender pool needs at least one connection"

/-- What a sender is doing. -/
inductive Sender.State where
  /-- There is no connection. -/
  | connecting
  | connected
  /-- A commit is under way, or was when its caller went away. -/
  | sending
  | closed
deriving DecidableEq, Repr

/-- A transport with the policy to use it. -/
structure Sender (σ : Type) where
  transport : σ
  policy : RetryPolicy
  state : Sender.State := .connecting

namespace Sender

variable {σ : Type} [Transport σ]

/-- How an operation of a sender ends. -/
abbrev Result (σ : Type) := Outcome (Except Fault Unit) (Sender σ)

/-- The sender without its connection. -/
def reset (s : Sender σ) : Sender σ :=
  { s with transport := Transport.tearDown s.transport, state := .connecting }

/-- Connects, in at most that many rounds. A failed connect is torn down before the next. -/
def establish (p : Patience) : Nat → Nat → Wait → Sender σ → Option (Result σ)
  | 0, _, _, _ => none
  | rounds + 1, attempts, w, s =>
    match p.await w (Transport.connect s.transport) with
    | .abandoned t => some (.abandoned { s with transport := t, state := .connecting })
    | .returned w true t =>
      some (.returned w (.ok ()) { s with transport := t, state := .connected })
    | .returned w false t =>
      let s := reset { s with transport := t }
      if s.policy.exhausted (attempts + 1) then
        some (.returned w (.error (.retriesExhausted (attempts + 1))) s)
      else
        match p.sleep w s.policy.interval with
        | none => some (.abandoned s)
        | some w => establish p rounds (attempts + 1) w s

/-- Has a connection, a new one if there is none. -/
def ready (p : Patience) (rounds : Nat) (w : Wait) (s : Sender σ) : Option (Result σ) :=
  if s.state = .connecting then establish p rounds 0 w s else some (.returned w (.ok ()) s)

/-- Commits what is pending of a batch until nothing is, in at most that many rounds. -/
def deliver (p : Patience) (connectRounds : Nat) :
    Nat → Nat → Wait → Batch → Sender σ → Option (Result σ)
  | 0, _, _, _, _ => none
  | rounds + 1, attempts, w, batch, s =>
    match ready p connectRounds w s with
    | none => none
    | some (.abandoned s) => some (.abandoned s)
    | some (.returned w (.error e) s) => some (.returned w (.error e) s)
    | some (.returned w (.ok _) s) =>
      match p.await w (Transport.commit batch.pending s.transport) with
      | .abandoned t => some (.abandoned { s with transport := t, state := .sending })
      | .returned w commit t =>
        let batch := batch.confirmAll commit.confirmed
        if batch.complete then
          some (.returned w (.ok ()) { s with transport := t, state := .connected })
        else
          let s := reset { s with transport := t }
          if s.policy.exhausted (attempts + 1) then
            some (.returned w (.error (.retriesExhausted (attempts + 1))) s)
          else
            match p.sleep w s.policy.interval with
            | none => some (.abandoned s)
            | some w => deliver p connectRounds rounds (attempts + 1) w batch s

/-- The sender after an interrupted commit has been dealt with. -/
def recover (s : Sender σ) : Sender σ := if s.state = .sending then reset s else s

/-- A sender over a transport, which is connected first. -/
def connect (rounds : Nat) (policy : RetryPolicy) (transport : σ) : Option (Result σ) :=
  establish .forever rounds 0 {} { transport, policy }

/-- Sends messages as one batch and returns when all of them are confirmed. -/
def send (rounds : Nat) (p : Patience) (messages : List Bytes) (s : Sender σ) :
    Option (Result σ) :=
  if s.state = .closed then some (.returned {} (.error .closed) s)
  else if messages.isEmpty then some (.returned {} (.ok ()) s.recover)
  else deliver p rounds rounds 0 {} (.ofMessages messages) s.recover

/-- Ends the session, in good order if there is one; the connection is dropped whatever comes of it.
-/
def close (s : Sender σ) : Outcome Unit (Sender σ) :=
  match s.state with
  | .closed => .returned {} () s
  | .connecting => .returned {} () { s.reset with state := .closed }
  | _ =>
    match Patience.forever.await {} (Transport.disconnect s.transport) with
    | .returned w _ t => .returned w () { reset { s with transport := t } with state := .closed }
    | .abandoned t => .abandoned { s with transport := t }

end Sender

end EventRelay.Delivery
