import EventRelay.Delivery.Batch

/-!
# Transports and waiting

A transport carries messages to a collector. It can be connected, told to commit what is pending of
a batch, asked to disconnect in good order, and torn down, which always succeeds at once. Why a call
fails is the transport's own business: whoever uses it learns whether it succeeded, and of a commit
also which positions were confirmed, and nothing but that changes a batch.

Calls take time and may never return, and whoever waits may lose patience. A `Call` is therefore
everything that can come of it: the answer with the time that it takes, and what the transport is
left in if nobody waits for the answer. `Patience.await` picks one of the two. Time is virtual, in
milliseconds, and a pause between attempts lasts as long as it was meant to.
-/

namespace EventRelay.Delivery

/-- What can come of a call on a state: an answer after some time, or none ever; `left` is the state
if the caller goes away before the answer. -/
inductive Call (α σ : Type) where
  | returns (after : Nat) (answer : α) (state left : σ)
  | hangs (left : σ)

/-- A call that returns at once. -/
def Call.now {α σ : Type} (answer : α) (state : σ) : Call α σ := .returns 0 answer state state

/-- The call on a larger state. -/
def Call.mapState {α σ τ : Type} (f : σ → τ) : Call α σ → Call α τ
  | .returns after answer state left => .returns after answer (f state) (f left)
  | .hangs left => .hangs (f left)

/-- What comes of a commit: the positions that were confirmed, and whether it ended well. -/
structure Commit where
  confirmed : List Nat
  ok : Bool
deriving DecidableEq, Repr

/-- Something that carries messages to a collector. -/
class Transport (σ : Type) where
  /-- Where the messages go, for people to read. -/
  target : σ → String
  connect : σ → Call Bool σ
  /-- Transmits pending messages, which are given with their positions. -/
  commit : List (Nat × Bytes) → σ → Call Commit σ
  /-- Ends the session in good order. -/
  disconnect : σ → Call Bool σ
  /-- Drops the connection, whatever its state. -/
  tearDown : σ → σ

/-- How long a caller waits. -/
inductive Patience where
  | forever
  /-- The caller goes away after that time. -/
  | atMost (ms : Nat)
deriving DecidableEq, Repr

/-- What a caller has waited: how often for the next attempt, and how long in all. -/
structure Wait where
  sleeps : Nat := 0
  elapsed : Nat := 0
deriving DecidableEq, Repr

/-- How a call ends for its caller: with an answer, or by the caller going away. A caller that never
goes away from a call that never returns waits for ever, which is the second case too. -/
inductive Outcome (α σ : Type) where
  | returned (wait : Wait) (answer : α) (state : σ)
  | abandoned (state : σ)

/-- The outcome for a larger state. -/
def Outcome.mapState {α σ τ : Type} (f : σ → τ) : Outcome α σ → Outcome α τ
  | .returned w a s => .returned w a (f s)
  | .abandoned s => .abandoned (f s)

/-- The state that is left. -/
def Outcome.state {α σ : Type} : Outcome α σ → σ
  | .returned _ _ s => s
  | .abandoned s => s

namespace Patience

/-- Whether the caller is still there after that time. What happens exactly when the patience ends
still finds the caller. -/
def allows : Patience → Nat → Bool
  | .forever, _ => true
  | .atMost ms, t => t ≤ ms

/-- Waits for a call, some time having passed already. -/
def await {α σ : Type} (p : Patience) (w : Wait) : Call α σ → Outcome α σ
  | .returns after answer state left =>
    if p.allows (w.elapsed + after) then
      .returned { w with elapsed := w.elapsed + after } answer state
    else .abandoned left
  | .hangs left => .abandoned left

/-- Waits for the next attempt; nothing if the caller goes away meanwhile. -/
def sleep (p : Patience) (w : Wait) (ms : Nat) : Option Wait :=
  let elapsed := w.elapsed + ms
  if p.allows elapsed then some ⟨w.sleeps + 1, elapsed⟩ else none

end Patience

end EventRelay.Delivery
