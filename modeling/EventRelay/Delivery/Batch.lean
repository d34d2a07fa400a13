import EventRelay.Text.Utf8

/-!
# Batches

The messages that are sent together, each with a note whether the collector has confirmed it. A
batch changes in one way only: `confirm` notes a confirmation, and a position that the batch does
not have is ignored. So payloads and positions never change, and what has been confirmed stays
confirmed.
-/

namespace EventRelay.Delivery

/-- A message of a batch. -/
structure Entry where
  payload : Bytes
  confirmed : Bool := false
deriving DecidableEq, Repr

/-- Messages sent together. -/
structure Batch where
  entries : List Entry
deriving DecidableEq, Repr

namespace Batch

/-- A batch of which nothing is confirmed. -/
def ofMessages (messages : List Bytes) : Batch := ⟨messages.map fun m => { payload := m }⟩

/-- The number of messages. -/
def size (b : Batch) : Nat := b.entries.length

/-- Notes that the message at a position is confirmed. -/
def confirm (b : Batch) (position : Nat) : Batch :=
  ⟨b.entries.modify position fun e => { e with confirmed := true }⟩

/-- Notes a confirmation for each of the positions. -/
def confirmAll (b : Batch) (positions : List Nat) : Batch := positions.foldl confirm b

/-- The messages of a list that are not confirmed, with their positions counted from a start. -/
def pendingFrom : Nat → List Entry → List (Nat × Bytes)
  | _, [] => []
  | n, e :: l =>
    if e.confirmed then pendingFrom (n + 1) l else (n, e.payload) :: pendingFrom (n + 1) l

/-- The messages that are not confirmed, with their positions. -/
def pending (b : Batch) : List (Nat × Bytes) := pendingFrom 0 b.entries

/-- Whether every message is confirmed. -/
def complete (b : Batch) : Bool := b.entries.all Entry.confirmed

end Batch

end EventRelay.Delivery
