import EventRelay.Delivery.Sender

/-!
# Sender pools

A fixed number of senders, at least one, that take turns: the n-th batch goes to the n-th sender in
the circle, whatever came of the batches before. One batch stays with one sender.
-/

namespace EventRelay.Delivery

/-- Senders that take turns. -/
structure Pool (σ : Type) where
  senders : Array (Sender σ)
  nonempty : 0 < senders.size
  /-- How many batches have been handed out. The count does not end here; a word of 64 bits would
  begin again after `2^64` batches, and turns would then follow one another as before only if the
  number of senders divides that. -/
  next : Nat := 0

namespace Pool

variable {σ : Type} [Transport σ]

/-- A pool of senders, of which there must be one. -/
def ofSenders (senders : List (Sender σ)) : Except Fault (Pool σ) :=
  if h : 0 < senders.toArray.size then .ok { senders := senders.toArray, nonempty := h }
  else .error .emptyPool

/-- Connects one transport after another; nothing if one of them never comes to an end. -/
def connectAll (rounds : Nat) (policy : RetryPolicy) :
    List σ → Option (Except Fault (List (Sender σ)))
  | [] => some (.ok [])
  | t :: ts =>
    match Sender.connect rounds policy t with
    | some (.returned _ (.ok _) s) => (connectAll rounds policy ts).map (·.map (s :: ·))
    | some (.returned _ (.error e) _) => some (.error e)
    | some (.abandoned _) => none
    | none => none

/-- A pool over transports, all of them connected. -/
def connect (rounds : Nat) (policy : RetryPolicy) (transports : List σ) :
    Option (Except Fault (Pool σ)) :=
  (connectAll rounds policy transports).map (·.bind ofSenders)

/-- The number of senders. -/
def size (p : Pool σ) : Nat := p.senders.size

/-- Whose turn it is. -/
def turn (p : Pool σ) : Fin p.senders.size := ⟨p.next % p.senders.size, Nat.mod_lt _ p.nonempty⟩

/-- The pool after the sender whose turn it was has done its work. -/
def advance (p : Pool σ) (s : Sender σ) : Pool σ where
  senders := p.senders.set p.turn s p.turn.isLt
  nonempty := by simpa using p.nonempty
  next := p.next + 1

/-- Sends messages as one batch by the sender whose turn it is. -/
def send (rounds : Nat) (patience : Patience) (messages : List Bytes) (p : Pool σ) :
    Option (Outcome (Except Fault Unit) (Pool σ)) :=
  (p.senders[p.turn].send rounds patience messages).map fun x => x.mapState p.advance

/-- Closes senders one after another. -/
def closeAll (w : Wait) : List (Sender σ) → Outcome Unit (List (Sender σ))
  | [] => .returned w () []
  | s :: ss =>
    match s.close with
    | .abandoned s => .abandoned (s :: ss)
    | .returned v _ s =>
      (closeAll ⟨w.sleeps + v.sleeps, w.elapsed + v.elapsed⟩ ss).mapState (s :: ·)

theorem length_closeAll (w : Wait) (ss : List (Sender σ)) :
    (closeAll w ss).state.length = ss.length := by
  induction ss generalizing w with
  | nil => rfl
  | cons s ss ih =>
    unfold closeAll
    split
    · rfl
    · next v _ s' _ =>
      have h := ih ⟨w.sleeps + v.sleeps, w.elapsed + v.elapsed⟩
      revert h
      cases closeAll ⟨w.sleeps + v.sleeps, w.elapsed + v.elapsed⟩ ss <;>
        simp [Outcome.mapState, Outcome.state]

/-- The pool with other senders in the places of its own. -/
def withSenders (p : Pool σ) (ss : List (Sender σ)) (h : ss.length = p.senders.size) : Pool σ where
  senders := ss.toArray
  nonempty := by simpa [h] using p.nonempty
  next := p.next

/-- Closes every sender. -/
def close (p : Pool σ) : Outcome Unit (Pool σ) :=
  have h := length_closeAll {} p.senders.toList
  match hx : closeAll {} p.senders.toList with
  | .returned w _ ss => .returned w () (p.withSenders ss (by simpa [hx, Outcome.state] using h))
  | .abandoned ss => .abandoned (p.withSenders ss (by simpa [hx, Outcome.state] using h))

end Pool

end EventRelay.Delivery
