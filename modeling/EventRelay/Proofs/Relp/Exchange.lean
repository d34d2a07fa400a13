import EventRelay.Proofs.Relp.Outcome
import EventRelay.Proofs.Relp.Stream
import Mathlib.Data.List.TakeWhile

/-!
# Commands that wait for their answer

Opening a session and closing it are commands with one answer. Whoever waits for it passes over all
frames but the answer and the one by which the collector closes, so the first of these decides
(`awaitAnswer_eq`), and if there is none the fault behind the last frame does. This is the end of
the session as well if the stream ends between two frames (`fault_eq_serverClose_iff`). So the bytes
that arrive say whether a session is opened (`connect_eq_ok_iff_welcomed`) and whether it is closed
in good order (`disconnect_eq_ok_iff_dismissed`).
-/

namespace EventRelay.Relp

/-! ## Streams that end between two frames -/

namespace Frame

variable {e : Ending} {fault : Fault}

theorem error_of_andThen {α β : Type} {x : Reading α} {f : α → Bytes → Reading β}
    (h : (x.andThen f).1 = .error fault) :
    x.1 = .error fault ∨ ∃ a, (f a x.2).1 = .error fault := by
  obtain ⟨result, rest⟩ := x
  cases result with
  | error e => exact .inl (congrArg Except.error (Except.error.inj h))
  | ok a => exact .inr ⟨a, h⟩

theorem error_of_refine {α β : Type} {x : Reading α} {v : Violation} {f : α → Option β}
    (h : (x.refine v f).1 = .error fault) : x.1 = .error fault ∨ fault = .violation v := by
  rcases error_of_andThen h with hx | ⟨a, ha⟩
  · exact .inl hx
  · split at ha
    · cases ha
    · cases ha
      exact .inr rfl

theorem fault_ne_serverClose {atEnd : Fault} (h : atEnd ≠ .serverClose) (e : Ending) :
    e.fault atEnd ≠ .serverClose := by
  cases e with
  | closed => exact h
  | silent => exact Fault.noConfusion
  | broken => exact Fault.noConfusion

theorem violation_ne_serverClose {α : Type} (v : Violation) :
    (.error (.violation v) : Except Fault α) ≠ .error .serverClose := by
  intro h
  cases h

theorem ok_ne_serverClose {α : Type} (a : α) : (.ok a : Except Fault α) ≠ .error .serverClose := by
  intro h
  cases h

theorem readField_ne_serverClose (field s : Bytes) :
    (readField e field s).1 ≠ .error .serverClose := by
  induction s generalizing field with
  | nil =>
    intro h
    exact fault_ne_serverClose Fault.noConfusion e (Except.error.inj h)
  | cons b rest ih =>
    unfold readField
    split
    · split
      · exact violation_ne_serverClose _
      · exact ok_ne_serverClose _
    · split
      · exact violation_ne_serverClose _
      · exact ih _

theorem readBody_ne_serverClose (length : Nat) (terminator : UInt8) (s : Bytes) :
    (readBody e length terminator s).1 ≠ .error .serverClose := by
  unfold readBody readData
  split
  · exact violation_ne_serverClose _
  · split
    · split
      · intro h
        exact fault_ne_serverClose Fault.noConfusion e (Except.error.inj h)
      · split
        · exact ok_ne_serverClose _
        · exact violation_ne_serverClose _
    · split
      · exact violation_ne_serverClose _
      · exact ok_ne_serverClose _

theorem readFirst_eq_serverClose {s : Bytes} (h : (readFirst e s).1 = .error .serverClose) :
    e = .closed ∧ ∀ b ∈ s, b = newline := by
  unfold readFirst at h
  split at h
  · next hskipped =>
    refine ⟨?_, fun b hb => of_decide_eq_true (List.dropWhile_eq_nil_iff.1 hskipped b hb)⟩
    cases e with
    | closed => rfl
    | silent => cases h
    | broken => cases h
  · exact absurd h (readField_ne_serverClose [] _)

/-- Reading finds the end of the stream exactly if there are newlines at most. -/
theorem read_eq_serverClose_iff {s : Bytes} :
    (read e s).1 = .error .serverClose ↔ e = .closed ∧ ∀ b ∈ s, b = newline := by
  constructor
  · intro h
    rcases error_of_andThen h with h | ⟨txnr, h⟩
    · rcases error_of_refine h with h | h
      · exact readFirst_eq_serverClose h
      · cases h
    rcases error_of_andThen h with h | ⟨command, h⟩
    · rcases error_of_refine h with h | h
      · exact absurd h (readField_ne_serverClose [] _)
      · cases h
    rcases error_of_andThen h with h | ⟨length, h⟩
    · rcases error_of_refine h with h | h
      · exact absurd h (readField_ne_serverClose [] _)
      · cases h
    rcases error_of_andThen h with h | ⟨data, h⟩
    · exact absurd h (readBody_ne_serverClose _ _ _)
    · cases h
  · rintro ⟨rfl, h⟩
    rw [List.eq_replicate_of_mem h]
    exact read_newlines .closed s.length

end Frame

section Ends

variable {π : Type} [Peer π]

/-- The peer has hung up, and behind the last frame there are newlines at most. -/
def Socket.EndsBetween (s : Socket π) : Prop :=
  s.ending = .closed ∧ ∃ s', Yields s (Frame.readAll s.ending s.unread).1 s' ∧
    ∀ b ∈ s'.unread, b = newline

/-- All frames of a stream can be read, one after another. -/
theorem yields_readAll (peer : π) (e : Ending) (bytes : Bytes) :
    ∃ rest, Yields (⟨peer, bytes, e⟩ : Socket π) (Frame.readAll e bytes).1 ⟨peer, rest, e⟩ ∧
      (Frame.read e rest).1 = .error (Frame.readAll e bytes).2 := by
  fun_induction Frame.readAll e bytes with
  | case1 bytes fault rest hread => exact ⟨bytes, .nil _, by rw [hread]⟩
  | case2 bytes f rest hread _ _ ih =>
    obtain ⟨rest', hyields, hfault⟩ := ih
    have hfirst : Wire.read (⟨peer, bytes, e⟩ : Socket π) = (.ok f, ⟨peer, rest, e⟩) := by
      change (((Frame.read e bytes).1, _) : Except Fault Frame × Socket π) = _
      rw [hread]
    exact ⟨rest', .cons hfirst hyields, hfault⟩

theorem fault_eq_serverClose_iff (s : Socket π) :
    (Frame.readAll s.ending s.unread).2 = .serverClose ↔ s.EndsBetween := by
  constructor
  · intro h
    obtain ⟨rest, hyields, hfault⟩ := yields_readAll s.peer s.ending s.unread
    rw [h] at hfault
    obtain ⟨hclosed, hrest⟩ := Frame.read_eq_serverClose_iff.1 hfault
    exact ⟨hclosed, _, hyields, hrest⟩
  · rintro ⟨hclosed, s', hyields, hrest⟩
    obtain ⟨hs', hall⟩ := hyields.readAll_eq
    have hend : (Frame.read s'.ending s'.unread).1 = .error .serverClose :=
      Frame.read_eq_serverClose_iff.2 ⟨by rw [hs', hclosed], hrest⟩
    rw [hall, Frame.readAll_of_error hend]

end Ends

/-! ## The frame that decides -/

/-- Whether a frame decides about the command with a number. -/
def Frame.decides (x : Nat) (f : Frame) : Bool := f.command = closing || f.answers x

/-- The first frame that decides about a command is its answer and reports success. -/
def Granted (x : Nat) (frames : List Frame) : Prop :=
  ∃ f, frames.find? (Frame.decides x) = some f ∧ f.command = answering ∧
    Text.Utf8.encode "200" <+: f.data

/-- The first frame that decides about a command says that the collector closes. -/
def ClosedFirst (x : Nat) (frames : List Frame) : Prop :=
  ∃ f, frames.find? (Frame.decides x) = some f ∧ f.command = closing

/-- What a frame that decides says about a command. -/
def Frame.verdict (command : String) (f : Frame) : Except Fault Unit :=
  if f.command = closing then .error .serverClose
  else if f.isSuccess then .ok () else .error (.violation (.rejected command f.data))

theorem Frame.decides_iff {x : Nat} {f : Frame} :
    f.decides x = true ↔ f.command = closing ∨ f.command = answering ∧ f.txnr = x := by
  rw [decides, Bool.or_eq_true, decide_eq_true_iff, answers_iff]

section Await

variable {π : Type} [Peer π] {x : Nat} {s : Socket π}

/-- The first frame that decides about a command does, or else the fault behind the last frame. -/
theorem awaitAnswer_eq (command : String) (x : Nat) (s : Socket π) :
    (awaitAnswer command x s).1 =
      match (Frame.readAll s.ending s.unread).1.find? (Frame.decides x) with
      | some f => f.verdict command
      | none => .error (Frame.readAll s.ending s.unread).2 := by
  fun_induction awaitAnswer command x s with
  | case1 s e s' hread =>
    obtain ⟨hframe, -⟩ := read_of_socket hread
    rw [Frame.readAll_of_error (congrArg Prod.fst hframe)]
    rfl
  | case2 s f s' hread _ hclosing =>
    obtain ⟨hframe, -⟩ := read_of_socket hread
    rw [readAll_of_ok hframe, List.find?_cons_of_pos (Frame.decides_iff.2 (.inl hclosing))]
    exact (if_pos hclosing).symm
  | case3 s f s' hread _ hopen hanswers =>
    obtain ⟨hframe, -⟩ := read_of_socket hread
    rw [readAll_of_ok hframe, List.find?_cons_of_pos (Frame.decides_iff.2 (.inr hanswers))]
    exact (if_neg hopen).symm
  | case4 s f s' hread _ hopen hother ih =>
    obtain ⟨hframe, hs'⟩ := read_of_socket hread
    have hpassed : ¬ f.decides x = true := by
      rw [Frame.decides_iff]
      exact not_or.2 ⟨hopen, hother⟩
    rw [ih, hs', readAll_of_ok hframe, List.find?_cons_of_neg hpassed]

theorem awaitAnswer_eq_ok_iff {command : String} :
    (awaitAnswer command x s).1 = .ok () ↔ Granted x (Frame.readAll s.ending s.unread).1 := by
  rw [awaitAnswer_eq]
  cases hfind : (Frame.readAll s.ending s.unread).1.find? (Frame.decides x) with
  | none =>
    refine iff_of_false nofun ?_
    rintro ⟨f, hf, -⟩
    cases hfind.symm.trans hf
  | some f =>
    have hdecides := Frame.decides_iff.1 (List.find?_some hfind)
    simp only [Granted, hfind, Option.some.injEq, exists_eq_left', Frame.verdict, ← isSuccess_iff]
    rcases hdecides with hclosing | ⟨hanswering, -⟩
    · rw [if_pos hclosing, hclosing]
      exact iff_of_false nofun fun h => absurd h.1 (by decide)
    · rw [if_neg (by rw [hanswering]; decide)]
      cases f.isSuccess <;> simp [hanswering]

theorem awaitAnswer_eq_serverClose_iff {command : String} :
    (awaitAnswer command x s).1 = .error .serverClose ↔
      ClosedFirst x (Frame.readAll s.ending s.unread).1 ∨
        (Frame.readAll s.ending s.unread).1.find? (Frame.decides x) = none ∧ s.EndsBetween := by
  rw [awaitAnswer_eq, ← fault_eq_serverClose_iff]
  cases hfind : (Frame.readAll s.ending s.unread).1.find? (Frame.decides x) with
  | none => simp [ClosedFirst, hfind]
  | some f =>
    simp only [ClosedFirst, hfind, Option.some.injEq, exists_eq_left', Frame.verdict,
      reduceCtorEq, false_and, or_false]
    split
    · next hclosing => exact iff_of_true rfl hclosing
    · next hopen =>
      refine iff_of_false ?_ hopen
      split <;> nofun

end Await

/-! ## Opening and closing a session -/

namespace Connection

section Wires

variable {ν : Type} [Wire ν] {c c' : Connection ν} {command : String} {data : Bytes}

theorem exchange_of_not_connected (hc : c.connected = false) :
    c.exchange command data = (.error .notConnected, c.takeTxnr.2) := by
  simp [exchange, write, takeTxnr, hc]

theorem exchange_of_error {e : Fault} {w : ν} (hc : c.connected = true)
    (h : Wire.write [⟨c.nextTxnr, command, data⟩] c.wire = (.error e, w)) :
    c.exchange command data = (.error e, { c.takeTxnr.2 with wire := w }) := by
  simp only [exchange, write, takeTxnr, hc, if_true, h]

theorem exchange_of_ok {w : ν} (hc : c.connected = true)
    (h : Wire.write [⟨c.nextTxnr, command, data⟩] c.wire = (.ok (), w)) :
    c.exchange command data = ((awaitAnswer command c.nextTxnr w).1,
      { c.takeTxnr.2 with wire := (awaitAnswer command c.nextTxnr w).2 }) := by
  simp only [exchange, write, takeTxnr, hc, if_true, h]

theorem tearDown_of_connected (hc : c.connected = true) :
    c.tearDown = { c with connected := false, wire := Wire.hangUp c.wire } := if_pos hc

theorem tearDown_of_not_connected (hc : c.connected = false) : c.tearDown = c := by
  simp [tearDown, hc]

/-- The client on a connection that has been taken, before anything is sent on it. -/
def dialed (c : Connection ν) (w : ν) : Connection ν :=
  { c.tearDown with wire := w, connected := true, nextTxnr := 1 }

theorem startSession_of_error {e : Fault} {w : ν} (h : Wire.dial c.tearDown.wire = (.error e, w)) :
    c.startSession = (.error e, { c.tearDown with wire := w }) := by
  simp only [startSession, h]

theorem startSession_of_ok {w : ν} (h : Wire.dial c.tearDown.wire = (.ok (), w)) :
    c.startSession = (c.dialed w).exchange "open" offers := by
  simp only [startSession, h, dialed]

theorem connect_of_error {e : Fault} (h : c.startSession = (.error e, c')) :
    c.connect = (.error e, c'.tearDown) := by
  rw [connect, h, keepSession]

theorem connect_of_ok (h : c.startSession = (.ok (), c')) : c.connect = (.ok (), c') := by
  rw [connect, h, keepSession]

theorem connect_fst (c : Connection ν) : c.connect.1 = c.startSession.1 := by
  obtain ⟨e, c', hstart⟩ | ⟨c', hstart⟩ := error_or_ok c.startSession
  · rw [connect_of_error hstart, hstart]
  · rw [connect_of_ok hstart, hstart]

theorem disconnect_eq_ok_iff :
    c.disconnect.1 = .ok () ↔ (c.exchange "close" []).1 = .ok () ∨
      (c.exchange "close" []).1 = .error .serverClose := by
  unfold disconnect endSession
  split
  · next h => simp [h]
  · next hne =>
    refine (or_iff_left fun h => hne _ (Prod.ext h rfl)).symm

end Wires

section Sockets

variable {π : Type} [Peer π] {c : Connection (Socket π)} {peer : π}

theorem write_of_hear {f : Frame} {s : Socket π} {arrival : Arrival}
    (h : Peer.hear f.encode s.peer = (.ok arrival, peer)) :
    Wire.write [f] s = (.ok (), ⟨peer, s.unread ++ arrival.bytes, arrival.ending⟩) := by
  change s.write [f] = _
  simp only [Socket.write, List.flatMap_singleton, h]

theorem write_of_not_hear {f : Frame} {s : Socket π} {e : Fault}
    (h : Peer.hear f.encode s.peer = (.error e, peer)) :
    Wire.write [f] s = (.error e, { s with peer }) := by
  change s.write [f] = _
  simp only [Socket.write, List.flatMap_singleton, h]

/-- A peer takes a new connection and the command that opens a session, and grants it. -/
def Welcomed (c : Connection (Socket π)) : Prop :=
  ∃ p₁ arrival p₂, Peer.accept c.tearDown.wire.peer = (.ok (), p₁) ∧
    Peer.hear (Frame.encode ⟨1, "open", offers⟩) p₁ = (.ok arrival, p₂) ∧
    Granted 1 (Frame.readAll arrival.ending arrival.bytes).1

theorem dial_of_accept {s : Socket π} {result : Except Fault Unit}
    (h : Peer.accept s.peer = (result, peer)) : Wire.dial s = (result, ⟨peer, [], .silent⟩) := by
  change ((Peer.accept s.peer).1, _) = _
  rw [h]

theorem connect_eq_ok_iff_welcomed : c.connect.1 = .ok () ↔ c.Welcomed := by
  rw [connect_fst]
  obtain ⟨e, p₁, haccept⟩ | ⟨p₁, haccept⟩ := error_or_ok (Peer.accept c.tearDown.wire.peer)
  · rw [startSession_of_error (dial_of_accept haccept)]
    refine iff_of_false nofun ?_
    rintro ⟨p, arrival, p', haccept', -⟩
    cases haccept.symm.trans haccept'
  · rw [startSession_of_ok (dial_of_accept haccept)]
    have hc : (c.dialed ⟨p₁, [], .silent⟩).connected = true := rfl
    cases hhear : Peer.hear (Frame.encode ⟨1, "open", offers⟩) p₁ with
    | mk result p₂ =>
      cases result with
      | error e =>
        have hwrite : Wire.write [⟨1, "open", offers⟩] (⟨p₁, [], .silent⟩ : Socket π) =
            (.error e, ⟨p₂, [], .silent⟩) := write_of_not_hear hhear
        rw [exchange_of_error hc hwrite]
        refine iff_of_false nofun ?_
        rintro ⟨p, arrival, p', haccept', hhear', -⟩
        cases haccept.symm.trans haccept'
        cases hhear.symm.trans hhear'
      | ok arrival =>
        have hwrite : Wire.write [⟨1, "open", offers⟩] (⟨p₁, [], .silent⟩ : Socket π) =
            (.ok (), ⟨p₂, arrival.bytes, arrival.ending⟩) := write_of_hear hhear
        rw [exchange_of_ok hc hwrite]
        refine awaitAnswer_eq_ok_iff.trans
          ⟨fun h => ⟨p₁, arrival, p₂, haccept, hhear, h⟩, ?_⟩
        rintro ⟨p, arrival', p', haccept', hhear', h⟩
        cases haccept.symm.trans haccept'
        cases hhear.symm.trans hhear'
        exact h

/-- What is read after a session was asked to close ends it in good order: it was granted, the
collector closes, or it has hung up. -/
def Dismissed (x : Nat) (s : Socket π) : Prop :=
  Granted x (Frame.readAll s.ending s.unread).1 ∨
    ClosedFirst x (Frame.readAll s.ending s.unread).1 ∨
    (Frame.readAll s.ending s.unread).1.find? (Frame.decides x) = none ∧ s.EndsBetween

theorem disconnect_eq_ok_iff_dismissed {arrival : Arrival} (hc : c.connected = true)
    (hhear : Peer.hear (Frame.encode ⟨c.nextTxnr, "close", []⟩) c.wire.peer =
      (.ok arrival, peer)) :
    c.disconnect.1 = .ok () ↔
      Dismissed c.nextTxnr (⟨peer, c.wire.unread ++ arrival.bytes, arrival.ending⟩ : Socket π) := by
  rw [disconnect_eq_ok_iff, exchange_of_ok hc (write_of_hear hhear)]
  exact or_congr awaitAnswer_eq_ok_iff awaitAnswer_eq_serverClose_iff

end Sockets

end Connection

end EventRelay.Relp
