import EventRelay.Delivery.Transport

/-!
# Transports that follow a script

Such a transport does what a list says, connect by connect and commit by commit, and whatever it is
told to confirm it confirms, also positions that were never offered. When a list is at its end,
connects succeed and commits confirm everything.
-/

namespace EventRelay.Delivery

/-- What a commit does. -/
structure Scripted.Step where
  confirm : List Nat
  /-- Whether it fails in the end. -/
  fail : Bool := false
  /-- Whether it never comes to its end. -/
  stall : Bool := false
deriving DecidableEq, Repr

/-- What is left of a script. -/
structure Scripted where
  connects : List Bool := []
  commits : List Scripted.Step := []
  failingDisconnect : Bool := false
deriving DecidableEq, Repr

instance : Transport Scripted where
  target _ := "scripted"
  connect s :=
    match s.connects with
    | [] => .now true s
    | ok :: rest => .now ok { s with connects := rest }
  commit pending s :=
    match s.commits with
    | [] => .now ⟨pending.map Prod.fst, true⟩ s
    | step :: rest =>
      let s := { s with commits := rest }
      if step.stall then .hangs s else .now ⟨step.confirm, !step.fail⟩ s
  disconnect s := .now (!s.failingDisconnect) s
  tearDown s := s

end EventRelay.Delivery
