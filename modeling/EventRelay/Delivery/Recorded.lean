import EventRelay.Delivery.Transport

/-!
# Transports that keep a log

Any transport can be made to note the calls that it gets and what came of them. The log takes no
part in the work: without it the transport does what it does on its own.
-/

namespace EventRelay.Delivery

/-- A call that a transport got. What came of it is absent when the caller went away. -/
inductive CallNote where
  | connect (ok : Option Bool)
  /-- A commit with the positions that it was offered. -/
  | commit (offered : List Nat) (result : Option Commit)
  | disconnect (ok : Option Bool)
  | tearDown
deriving DecidableEq, Repr

/-- A call in words. -/
def CallNote.words : CallNote → String
  | .connect _ => "connect"
  | .commit offered _ => "commit [" ++ String.intercalate ", " (offered.map toString) ++ "]"
  | .disconnect _ => "disconnect"
  | .tearDown => "tear_down"

/-- A transport with the calls that it got, the latest first. -/
structure Recorded (σ : Type) where
  inner : σ
  log : List CallNote := []

namespace Recorded

/-- Notes a call, with its answer if the caller stays for it. -/
def note {α σ : Type} (f : Option α → CallNote) (log : List CallNote) :
    Call α σ → Call α (Recorded σ)
  | .returns after answer state left =>
    .returns after answer ⟨state, f (some answer) :: log⟩ ⟨left, f none :: log⟩
  | .hangs left => .hangs ⟨left, f none :: log⟩

instance {σ : Type} [Transport σ] : Transport (Recorded σ) where
  target t := Transport.target t.inner
  connect t := note .connect t.log (Transport.connect t.inner)
  commit pending t :=
    note (.commit (pending.map Prod.fst)) t.log (Transport.commit pending t.inner)
  disconnect t := note .disconnect t.log (Transport.disconnect t.inner)
  tearDown t := ⟨Transport.tearDown t.inner, .tearDown :: t.log⟩

end Recorded

end EventRelay.Delivery
