import EventRelay.Delivery.Transport

/-!
# The transport that keeps messages in memory

It reaches no collector and keeps what it is given. It can be told to fail a number of times first:
a failing connect does nothing, a failing commit confirms all pending messages but the last, and a
stalling commit confirms none and never returns.
-/

namespace EventRelay.Delivery

/-- Messages kept in memory, with the failures still to come. -/
structure Memory where
  failingConnects : Nat := 0
  failingCommits : Nat := 0
  stallingCommits : Nat := 0
  failingDisconnect : Bool := false
  /-- The confirmed messages as text, in the order of confirmation. -/
  delivered : Array String := #[]
  /-- How many connects there were. -/
  connects : Nat := 0
  /-- How many commits there were. -/
  commits : Nat := 0
  connected : Bool := false
deriving DecidableEq, Repr

namespace Memory

def connect (m : Memory) : Bool × Memory :=
  let m := { m with connects := m.connects + 1 }
  match m.failingConnects with
  | 0 => (true, { m with connected := true })
  | n + 1 => (false, { m with failingConnects := n })

/-- Keeps messages, all of them confirmed. -/
def keep (pending : List (Nat × Bytes)) (m : Memory) : Memory :=
  { m with delivered := m.delivered ++ pending.map fun e => Text.Utf8.decodeLossy e.2 }

/-- A commit that does not stall. -/
def commit (pending : List (Nat × Bytes)) (m : Memory) : Commit × Memory :=
  if m.connected then
    let m := { m with commits := m.commits + 1 }
    match m.failingCommits with
    | 0 => (⟨pending.map Prod.fst, true⟩, m.keep pending)
    | n + 1 =>
      let kept := pending.dropLast
      (⟨kept.map Prod.fst, false⟩, { m with failingCommits := n }.keep kept)
  else (⟨[], false⟩, m)

def disconnect (m : Memory) : Bool × Memory :=
  if m.failingDisconnect then (false, m) else (true, { m with connected := false })

instance : Transport Memory where
  target _ := "memory"
  connect m := .now m.connect.1 m.connect.2
  commit pending m :=
    match m.stallingCommits with
    | 0 =>
      let x := m.commit pending
      .now x.1 x.2
    | n + 1 => .hangs { m with stallingCommits := n, commits := m.commits + 1 }
  disconnect m := .now m.disconnect.1 m.disconnect.2
  tearDown m := { m with connected := false }

end Memory

end EventRelay.Delivery
