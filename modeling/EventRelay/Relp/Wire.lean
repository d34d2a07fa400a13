import EventRelay.Relp.Frame

/-!
# Wires

A wire is a network as the client of a collector sees it: it can be asked for a connection, takes
frames and yields frames, and the connection can be dropped. Whatever a collector does shows here in
what the wire answers. Between two writes a wire yields only so many frames, which bounds every loop
that waits for an answer.

`Traced` keeps a list of what happened on any wire, for those who want to see it or reason about it.
-/

namespace EventRelay.Relp

/-- A network that connects to a collector. -/
class Wire (ν : Type) where
  /-- Opens a connection. -/
  dial : ν → Except Fault Unit × ν
  /-- Sends frames, one after another. -/
  write : List Frame → ν → Except Fault Unit × ν
  /-- The next frame from the collector. -/
  read : ν → Except Fault Frame × ν
  /-- Drops the connection. -/
  hangUp : ν → ν
  /-- How many frames can be read before the next write, at most. -/
  unread : ν → Nat
  unread_read : ∀ {w f w'}, read w = (.ok f, w') → unread w' < unread w

/-- Something that happened on a wire. -/
inductive Note where
  | dialed (result : Except Fault Unit)
  | wrote (frames : List Frame) (result : Except Fault Unit)
  | got (result : Except Fault Frame)
  | hungUp

/-- A wire with what happened on it, the latest first. -/
structure Traced (ν : Type) where
  inner : ν
  log : List Note := []

instance {ν : Type} [Wire ν] : Wire (Traced ν) where
  dial w :=
    let x := Wire.dial w.inner
    (x.1, ⟨x.2, .dialed x.1 :: w.log⟩)
  write frames w :=
    let x := Wire.write frames w.inner
    (x.1, ⟨x.2, .wrote frames x.1 :: w.log⟩)
  read w :=
    let x := Wire.read w.inner
    (x.1, ⟨x.2, .got x.1 :: w.log⟩)
  hangUp w := ⟨Wire.hangUp w.inner, .hungUp :: w.log⟩
  unread w := Wire.unread w.inner
  unread_read := by
    intro w f w' h
    obtain ⟨h₁, rfl⟩ := Prod.mk.injEq .. ▸ h
    exact Wire.unread_read (Prod.ext h₁ rfl)

end EventRelay.Relp
