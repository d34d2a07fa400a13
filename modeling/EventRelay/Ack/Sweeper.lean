import EventRelay.Ack.Operation

/-!
# The sweeper

A registry that is swept at regular times: one period after the start, two periods after it, and so
on, until the sweeper is cancelled. The times are the multiples of the period, so a sweep that is
due at some instant is due there whatever happened before. Time passes only in `sleep`, and a sweep
that is due exactly when the sleep ends belongs to that sleep.
-/

namespace EventRelay.Ack

/-- A registry, whose clock started at 0 together with the sweeper. -/
structure Sweeper where
  /-- The time from one sweep to the next. -/
  period : Nat
  registry : Registry
  /-- Whether the sweeper has ended. -/
  stopped : Bool := false

namespace Sweeper

/-- Starts to sweep an empty registry. Without a period there is nothing to wait for and the sweeper
ends at once. -/
def start (limits : Limits) (period : Nat) : Sweeper :=
  { period, registry := { limits }, stopped := period = 0 }

/-- How many sweeps are due by a time. -/
def dueBy (time : Nat) (s : Sweeper) : Nat := time / s.period

/-- Waits for the next sweep and does it. -/
def tick (s : Sweeper) : Sweeper :=
  let due := (s.dueBy s.registry.now + 1) * s.period
  { s with registry := (s.registry.advance (due - s.registry.now)).sweep.2 }

/-- Does that many sweeps, each at its time. -/
def ticks : Nat → Sweeper → Sweeper
  | 0, s => s
  | n + 1, s => ticks n s.tick

/-- Lets time pass, with the sweeps that are due. -/
def sleep (ms : Nat) (s : Sweeper) : Sweeper :=
  let target := s.registry.now + ms
  let swept := if s.stopped then s else s.ticks (s.dueBy target - s.dueBy s.registry.now)
  { swept with registry := swept.registry.advance (target - swept.registry.now) }

/-- Ends the sweeper. -/
def cancel (s : Sweeper) : Sweeper := { s with stopped := true }

/-- Does something to the registry without time passing. -/
def apply (op : Operation) (s : Sweeper) : Answer × Sweeper :=
  let x := op.run s.registry
  (x.1, { s with registry := x.2 })

/-- Does something, with the sweeps that are due while time passes. -/
def act (op : Operation) (s : Sweeper) : Answer × Sweeper :=
  match op with
  | .advance ms => (.done, s.sleep ms)
  | op => s.apply op

/-- Does one thing after another; the answers stand in the same order. -/
def runAll : List Operation → Sweeper → List Answer × Sweeper
  | [], s => ([], s)
  | op :: ops, s =>
    let x := s.act op
    let rest := runAll ops x.2
    (x.1 :: rest.1, rest.2)

end Sweeper

end EventRelay.Ack
