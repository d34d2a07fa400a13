import EventRelay.Relp.Wire

/-!
# Byte streams

A socket is a wire made of bytes. On the other side is a peer, which sees what is written to it and
sends what it likes. What a peer sends until the client writes again is all there at once: the bytes
that arrive, and how the stream goes on behind them. The socket keeps what has not been read, and
reads frames off it; a new connection starts with nothing.
-/

namespace EventRelay.Relp

/-- What arrives from a peer: bytes, and what follows them. -/
structure Arrival where
  bytes : Bytes
  ending : Ending
deriving DecidableEq, Repr

/-- The other side of a connection. -/
class Peer (π : Type) where
  /-- Takes a new connection, or does not. -/
  accept : π → Except Fault Unit × π
  /-- Gets the bytes of a write, or does not; with what it sends until the next write. -/
  hear : Bytes → π → Except Fault Arrival × π
  /-- Learns that the connection is gone. -/
  lose : π → π

/-- A connection to a peer, with what has arrived but has not been read. -/
structure Socket (π : Type) where
  peer : π
  unread : Bytes := []
  ending : Ending := .closed

namespace Socket

variable {π : Type} [Peer π]

/-- The next frame among the bytes that have arrived. -/
def read (s : Socket π) : Except Fault Frame × Socket π :=
  let x := Frame.read s.ending s.unread
  (x.1, { s with unread := x.2 })

/-- Sends frames; what the peer sends in return comes behind what has not been read. -/
def write (frames : List Frame) (s : Socket π) : Except Fault Unit × Socket π :=
  let x := Peer.hear (frames.flatMap Frame.encode) s.peer
  match x.1 with
  | .error e => (.error e, { s with peer := x.2 })
  | .ok a => (.ok (), ⟨x.2, s.unread ++ a.bytes, a.ending⟩)

instance : Wire (Socket π) where
  dial s :=
    let x := Peer.accept s.peer
    (x.1, ⟨x.2, [], .silent⟩)
  write := write
  read := read
  hangUp s := ⟨Peer.lose s.peer, [], .closed⟩
  unread s := s.unread.length
  unread_read := by
    intro s f s' h
    obtain ⟨h₁, rfl⟩ := Prod.mk.injEq .. ▸ h
    exact Frame.read_ok_lt h₁

end Socket

end EventRelay.Relp
