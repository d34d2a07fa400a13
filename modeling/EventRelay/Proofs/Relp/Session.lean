import EventRelay.Proofs.Relp.Traced
import EventRelay.Relp.Collector

/-!
# What a session looks like

A wire that keeps a trace knows the frames that were written on each connection (`sessions`).
Whatever is done to a client and whatever the collector does, on every connection that was taken
these are an `open`, then messages and a `close`, numbered from one on (`IsSession`). What one
operation writes continues the numbers (`Continues`), so it keeps the sessions in order
(`inOrder_run`), and with it a whole run does.

A client that has lost its connection has it back only by connecting
(`not_connected_of_history`). What connecting and disconnecting answer is decided by what the
collector sends. `session_discipline` puts these together.
-/

namespace EventRelay.Relp

/-! ## The frames of a connection -/

/-- Writes frames on the latest connection. -/
def extend (frames : List Frame) : List (List Frame) → List (List Frame)
  | [] => [frames]
  | session :: earlier => (session ++ frames) :: earlier

/-- The frames that a client wrote, or tried to write, on each connection that was taken, the latest
connection first. -/
def sessions : List Note → List (List Frame)
  | [] => []
  | .dialed (.ok _) :: log => [] :: sessions log
  | .wrote frames _ :: log => extend frames (sessions log)
  | _ :: log => sessions log

/-- The frames of a session: it is opened first, all else are messages and closings, and the
numbers are consecutive. -/
structure IsSession (frames : List Frame) : Prop where
  opened : ∃ rest, frames = ⟨1, "open", offers⟩ :: rest ∧
    ∀ f ∈ rest, f.command = "syslog" ∨ f.command = "close"
  numbered : frames.length ≤ maxTxnr → frames.map Frame.txnr = List.range' 1 frames.length

/-- Frames of messages and closings under the numbers from `next` on, which leave `next'`. -/
structure Continues (next : Nat) (frames : List Frame) (next' : Nat) : Prop where
  commands : ∀ f ∈ frames, f.command = "syslog" ∨ f.command = "close"
  numbered : next + frames.length ≤ maxTxnr + 1 →
    frames.map Frame.txnr = List.range' next frames.length
  advanced : next + frames.length ≤ maxTxnr → next' = next + frames.length

/-- As long as the numbers do not start again, they rise. -/
theorem IsSession.rising {frames : List Frame} (h : IsSession frames)
    (hlength : frames.length ≤ maxTxnr) : (frames.map Frame.txnr).Pairwise (· < ·) := by
  rw [h.numbered hlength]
  exact List.pairwise_lt_range'

theorem isSession_open : IsSession [⟨1, "open", offers⟩] := ⟨⟨[], rfl, nofun⟩, fun _ => rfl⟩

/-- A session goes on with the number behind its last one. -/
theorem IsSession.append {session frames : List Frame} {next next' : Nat} (h : IsSession session)
    (hnext : session.length < maxTxnr → next = session.length + 1)
    (hframes : Continues next frames next') :
    IsSession (session ++ frames) ∧
      ((session ++ frames).length < maxTxnr → next' = (session ++ frames).length + 1) := by
  obtain ⟨rest, hrest, hcommands⟩ := h.opened
  rw [List.length_append]
  refine ⟨⟨⟨rest ++ frames, ?_, List.forall_mem_append.2 ⟨hcommands, hframes.commands⟩⟩, ?_⟩, ?_⟩
  · rw [hrest, List.cons_append]
  · intro hlength
    rw [List.length_append] at hlength ⊢
    rw [List.map_append, h.numbered (by omega)]
    -- the numbers of a session may be used up if nothing is added to it
    cases frames with
    | nil => simp
    | cons f frames =>
      rw [List.length_cons] at hlength
      have hnext := hnext (by omega)
      rw [hframes.numbered (by rw [List.length_cons]; omega), hnext, Nat.add_comm _ 1,
        List.range'_append_1]
  · intro hlength
    have hnext := hnext (by omega)
    rw [hframes.advanced (by omega), hnext]
    omega

namespace Connection

section Numbers

variable {ν : Type}

theorem map_txnr_commands (first : Nat) (pending : List (Nat × Bytes)) :
    (commands first pending).map Frame.txnr = List.range' first pending.length := by
  induction pending generalizing first with
  | nil => rfl
  | cons e pending ih => rw [commands, List.map_cons, ih, List.length_cons, List.range'_succ]

theorem length_frames (c : Connection ν) (pending : List (Nat × Bytes)) :
    (c.frames pending).length = pending.length := by
  have hlength := congrArg List.length (c.map_frames pending)
  rwa [List.length_map, List.length_map] at hlength

theorem continues_commit (c : Connection ν) (pending : List (Nat × Bytes)) :
    Continues c.nextTxnr (c.frames pending) (c.number pending).2.nextTxnr where
  commands f hf := by
    have hmem : (f.command, f.data) ∈ pending.map fun e => ("syslog", e.2) := by
      rw [← c.map_frames]
      exact List.mem_map_of_mem hf
    obtain ⟨e, -, he⟩ := List.mem_map.1 hmem
    exact .inl (Prod.mk.inj he).1.symm
  numbered h := by
    rw [length_frames] at h ⊢
    rw [frames_eq_commands h, map_txnr_commands]
  advanced h := by
    rw [length_frames] at h ⊢
    exact number_nextTxnr h

theorem continues_close (c : Connection ν) (data : Bytes) :
    Continues c.nextTxnr [⟨c.nextTxnr, "close", data⟩] c.takeTxnr.2.nextTxnr :=
  ⟨by simp, fun _ => rfl, takeTxnr_nextTxnr⟩

end Numbers

/-! ## The state of a client after a call -/

section States

variable {ν : Type} [Wire ν] {c : Connection ν}

theorem exchange_state (c : Connection ν) (command : String) (data : Bytes) :
    (c.exchange command data).2.connected = c.connected ∧
      (c.exchange command data).2.nextTxnr = c.takeTxnr.2.nextTxnr := by
  cases hc : c.connected with
  | false =>
    rw [exchange_of_not_connected hc]
    exact ⟨hc, rfl⟩
  | true =>
    obtain ⟨e, w, hwrite⟩ | ⟨w, hwrite⟩ :=
      error_or_ok (Wire.write [⟨c.nextTxnr, command, data⟩] c.wire)
    · rw [exchange_of_error hc hwrite]
      exact ⟨hc, rfl⟩
    · rw [exchange_of_ok hc hwrite]
      exact ⟨hc, rfl⟩

theorem commit_state (c : Connection ν) (pending : List (Nat × Bytes)) :
    (c.commit pending).2.2.connected = c.connected ∧
      (c.commit pending).2.2.nextTxnr = (c.number pending).2.nextTxnr := by
  have hnumber : (c.number pending).2.connected = c.connected := (number_wire pending c).1
  cases hc : c.connected with
  | false =>
    rw [commit_of_not_connected hc]
    exact ⟨hnumber.trans hc, rfl⟩
  | true =>
    obtain ⟨e, w, hwrite⟩ | ⟨w, hwrite⟩ := error_or_ok (Wire.write (c.frames pending) c.wire)
    · rw [commit_of_error hc hwrite]
      exact ⟨hnumber.trans hc, rfl⟩
    · rw [commit_of_ok hc hwrite]
      exact ⟨hnumber.trans hc, rfl⟩

theorem tearDown_connected (c : Connection ν) : c.tearDown.connected = false := by
  cases hc : c.connected with
  | false => rw [tearDown_of_not_connected hc, hc]
  | true => rw [tearDown_of_connected hc]

theorem disconnect_snd (c : Connection ν) :
    c.disconnect.2 = (c.exchange "close" []).2.tearDown := by
  have hend : c.endSession.2 = (c.exchange "close" []).2 := by
    unfold endSession
    split
    · next h => rw [h]
    · rfl
  exact congrArg tearDown hend

/-- Without a session there is no connection. -/
theorem connect_connected (h : c.connect.1 ≠ .ok ()) : c.connect.2.connected = false := by
  obtain ⟨e, c', hstart⟩ | ⟨c', hstart⟩ := error_or_ok c.startSession
  · rw [connect_of_error hstart]
    exact c'.tearDown_connected
  · rw [connect_of_ok hstart] at h
    exact absurd rfl h

end States

/-! ## Sessions that are in order -/

section Order

variable {ν : Type} {c c' : Connection (Traced ν)}

/-- All sessions are in order, and a client with a connection knows where the latest one goes on. -/
structure InOrder (c : Connection (Traced ν)) : Prop where
  lawful : ∀ frames ∈ sessions c.wire.log, IsSession frames
  current : c.connected = true → ∃ session earlier, sessions c.wire.log = session :: earlier ∧
    (session.length < maxTxnr → c.nextTxnr = session.length + 1)

/-- Without a connection nothing has to go on. -/
theorem InOrder.of_not_connected (hc' : c'.connected = false)
    (hsame : sessions c'.wire.log = sessions c.wire.log) (h : InOrder c) : InOrder c' :=
  ⟨fun frames hframes => h.lawful frames (hsame ▸ hframes), fun hc => by cases hc'.symm.trans hc⟩

/-- What continues the latest session keeps the sessions in order. -/
theorem InOrder.extend {frames : List Frame} (h : InOrder c) (hc : c.connected = true)
    (hframes : Continues c.nextTxnr frames c'.nextTxnr)
    (hsessions : sessions c'.wire.log = Relp.extend frames (sessions c.wire.log)) :
    InOrder c' := by
  obtain ⟨session, earlier, heq, hnext⟩ := h.current hc
  have hlawful := h.lawful
  rw [heq, List.forall_mem_cons] at hlawful
  obtain ⟨hsession, hnext'⟩ := hlawful.1.append hnext hframes
  have heq' : sessions c'.wire.log = (session ++ frames) :: earlier := by rw [hsessions, heq]; rfl
  constructor
  · rw [heq', List.forall_mem_cons]
    exact ⟨hsession, hlawful.2⟩
  · intro _
    exact ⟨_, _, heq', hnext'⟩

end Order

section Sessions

variable {ν : Type} [Wire ν] {w w' : Traced ν} {c : Connection (Traced ν)}

theorem log_of_dial {result : Except Fault Unit} (h : Wire.dial w = (result, w')) :
    w'.log = .dialed result :: w.log := by
  obtain rfl : (Wire.dial w).1 = result := congrArg Prod.fst h
  obtain rfl : (Wire.dial w).2 = w' := congrArg Prod.snd h
  rfl

theorem sessions_of_read {result : Except Fault Frame} (h : Wire.read w = (result, w')) :
    sessions w'.log = sessions w.log := by
  obtain rfl : (Wire.read w).2 = w' := congrArg Prod.snd h
  rfl

theorem sessions_of_write {frames : List Frame} {result : Except Fault Unit}
    (h : Wire.write frames w = (result, w')) :
    sessions w'.log = extend frames (sessions w.log) := by
  obtain rfl : (Wire.write frames w).2 = w' := congrArg Prod.snd h
  rfl

theorem sessions_awaitAnswer (command : String) (x : Nat) (w : Traced ν) :
    sessions (awaitAnswer command x w).2.log = sessions w.log := by
  fun_induction awaitAnswer command x w with
  | case1 w e w' hread => exact sessions_of_read hread
  | case2 w f w' hread => exact sessions_of_read hread
  | case3 w f w' hread => exact sessions_of_read hread
  | case4 w f w' hread _ _ _ ih => exact ih.trans (sessions_of_read hread)

theorem sessions_settle (inFlight : InFlight) (confirmed : List Nat) (w : Traced ν) :
    sessions (settle inFlight confirmed w).2.2.log = sessions w.log := by
  fun_induction settle inFlight confirmed w with
  | case1 => rfl
  | case2 inFlight confirmed w _ e w' hread => exact sessions_of_read hread
  | case3 inFlight confirmed w _ f w' hread => exact sessions_of_read hread
  | case4 inFlight confirmed w _ f w' hread _ _ _ _ _ ih =>
    exact ih.trans (sessions_of_read hread)
  | case5 inFlight confirmed w _ f w' hread _ _ _ _ ih => exact ih.trans (sessions_of_read hread)
  | case6 inFlight confirmed w _ f w' hread _ _ _ ih => exact ih.trans (sessions_of_read hread)

theorem sessions_exchange (hc : c.connected = true) (command : String) (data : Bytes) :
    sessions (c.exchange command data).2.wire.log =
      extend [⟨c.nextTxnr, command, data⟩] (sessions c.wire.log) := by
  obtain ⟨e, w, hwrite⟩ | ⟨w, hwrite⟩ :=
    error_or_ok (Wire.write [⟨c.nextTxnr, command, data⟩] c.wire)
  · rw [exchange_of_error hc hwrite]
    exact sessions_of_write hwrite
  · rw [exchange_of_ok hc hwrite]
    exact (sessions_awaitAnswer command _ w).trans (sessions_of_write hwrite)

theorem sessions_commit (hc : c.connected = true) (pending : List (Nat × Bytes)) :
    sessions (c.commit pending).2.2.wire.log =
      extend (c.frames pending) (sessions c.wire.log) := by
  obtain ⟨e, w, hwrite⟩ | ⟨w, hwrite⟩ := error_or_ok (Wire.write (c.frames pending) c.wire)
  · rw [commit_of_error hc hwrite]
    exact sessions_of_write hwrite
  · rw [commit_of_ok hc hwrite]
    exact (sessions_settle _ [] w).trans (sessions_of_write hwrite)

theorem sessions_tearDown (c : Connection (Traced ν)) :
    sessions c.tearDown.wire.log = sessions c.wire.log := by
  cases hc : c.connected with
  | false => rw [tearDown_of_not_connected hc]
  | true =>
    rw [tearDown_of_connected hc]
    rfl

theorem inOrder_tearDown (h : InOrder c) : InOrder c.tearDown :=
  h.of_not_connected c.tearDown_connected (sessions_tearDown c)

theorem inOrder_startSession (h : InOrder c) : InOrder c.startSession.2 := by
  have htorn : InOrder c.tearDown := inOrder_tearDown h
  obtain ⟨e, w, hdial⟩ | ⟨w, hdial⟩ := error_or_ok (Wire.dial c.tearDown.wire)
  · rw [startSession_of_error hdial]
    refine htorn.of_not_connected c.tearDown_connected ?_
    change sessions w.log = _
    rw [log_of_dial hdial]
    rfl
  · rw [startSession_of_ok hdial]
    have hsessions := sessions_exchange (c := c.dialed w) rfl "open" offers
    have hdialed : sessions (c.dialed w).wire.log = [] :: sessions c.tearDown.wire.log := by
      change sessions w.log = _
      rw [log_of_dial hdial]
      rfl
    rw [hdialed] at hsessions
    constructor
    · rw [hsessions]
      exact List.forall_mem_cons.2 ⟨isSession_open, htorn.lawful⟩
    · intro _
      refine ⟨_, _, hsessions, fun hone => ?_⟩
      rw [(exchange_state (c.dialed w) "open" offers).2]
      exact takeTxnr_nextTxnr hone

theorem inOrder_connect (h : InOrder c) : InOrder c.connect.2 := by
  have hstarted := inOrder_startSession h
  obtain ⟨e, c', hstart⟩ | ⟨c', hstart⟩ := error_or_ok c.startSession
  · rw [hstart] at hstarted
    rw [connect_of_error hstart]
    exact inOrder_tearDown hstarted
  · rw [hstart] at hstarted
    rw [connect_of_ok hstart]
    exact hstarted

theorem inOrder_commit (h : InOrder c) (pending : List (Nat × Bytes)) :
    InOrder (c.commit pending).2.2 := by
  cases hc : c.connected with
  | false =>
    rw [commit_of_not_connected hc]
    obtain ⟨hconnected, hwire⟩ := number_wire pending c
    exact h.of_not_connected (hconnected.trans hc) (by rw [hwire])
  | true =>
    refine h.extend hc ?_ (sessions_commit hc pending)
    rw [(commit_state c pending).2]
    exact continues_commit c pending

theorem inOrder_close (h : InOrder c) (data : Bytes) : InOrder (c.exchange "close" data).2 := by
  cases hc : c.connected with
  | false =>
    rw [exchange_of_not_connected hc]
    exact InOrder.of_not_connected (c := c) hc rfl h
  | true =>
    refine h.extend hc ?_ (sessions_exchange hc "close" data)
    rw [(exchange_state c "close" data).2]
    exact continues_close c data

theorem inOrder_disconnect (h : InOrder c) : InOrder c.disconnect.2 := by
  rw [disconnect_snd]
  exact inOrder_tearDown (inOrder_close h [])

/-- Every operation keeps the sessions in order. -/
theorem inOrder_run (h : InOrder c) (op : Operation) : InOrder (op.run c).2 := by
  cases op with
  | connect => exact inOrder_connect h
  | commit batch => exact inOrder_commit h batch.pending
  | disconnect => exact inOrder_disconnect h
  | tearDown => exact inOrder_tearDown h

theorem inOrder_runAll (h : InOrder c) (ops : List Operation) :
    InOrder (Operation.runAll ops c).2 := by
  induction ops generalizing c with
  | nil => exact h
  | cons op ops ih => exact ih (inOrder_run h op)

end Sessions

/-! ## Clients without a connection -/

/-- One thing done to a client, with the client that it was done to. -/
structure Moment (ν : Type) where
  before : Connection ν
  operation : Operation
  answer : Answer

/-- A session was opened. -/
def Moment.Links {ν : Type} (m : Moment ν) : Prop :=
  m.operation = .connect ∧ m.answer.result = .ok ()

/-- The connection was dropped, or none could be made. -/
def Moment.Cuts {ν : Type} (m : Moment ν) : Prop :=
  match m.operation with
  | .connect => m.answer.result ≠ .ok ()
  | .commit _ => False
  | .disconnect => True
  | .tearDown => True

section Moments

variable {ν : Type} [Wire ν] {c : Connection ν} {op : Operation} {ops : List Operation}
  {m : Moment ν}

/-- An operation and its answer. -/
def Operation.moment (op : Operation) (c : Connection ν) : Moment ν := ⟨c, op, (op.run c).1⟩

/-- What happens when operations are done one after another, in order. -/
def Operation.history : List Operation → Connection ν → List (Moment ν)
  | [], _ => []
  | op :: ops, c => op.moment c :: history ops (op.run c).2

open Operation

theorem map_answer_history (ops : List Operation) (c : Connection ν) :
    (history ops c).map Moment.answer = (runAll ops c).1 := by
  induction ops generalizing c with
  | nil => rfl
  | cons op ops ih => exact congrArg (List.cons _) (ih (op.run c).2)

/-- What follows a moment is the history of the client that it leaves. -/
theorem history_split {past rest : List (Moment ν)} (h : history ops c = past ++ m :: rest) :
    m = m.operation.moment m.before ∧
      ∃ ops', rest = history ops' (m.operation.run m.before).2 := by
  induction past generalizing ops c with
  | nil =>
    cases ops with
    | nil => cases h
    | cons op ops =>
      obtain ⟨rfl, rfl⟩ := List.cons.inj h
      exact ⟨rfl, ops, rfl⟩
  | cons m' past ih =>
    cases ops with
    | nil => cases h
    | cons op ops => exact ih (List.cons.inj h).2

theorem moment_of_mem (h : m ∈ history ops c) : m = m.operation.moment m.before := by
  obtain ⟨past, rest, heq⟩ := List.append_of_mem h
  exact (history_split heq).1

theorem not_connected_of_cuts (h : (op.moment c).Cuts) : (op.run c).2.connected = false := by
  cases op with
  | connect => exact connect_connected h
  | commit batch => exact h.elim
  | disconnect => exact tearDown_connected _
  | tearDown => exact tearDown_connected c

/-- A connection comes from connecting only. -/
theorem not_connected_run (hc : c.connected = false) (h : ¬ (op.moment c).Links) :
    (op.run c).2.connected = false := by
  cases op with
  | connect => exact connect_connected fun hok => h ⟨rfl, hok⟩
  | commit batch => exact (commit_state c batch.pending).1.trans hc
  | disconnect => exact tearDown_connected _
  | tearDown => exact tearDown_connected c

theorem not_connected_of_history {between later : List (Moment ν)} (hc : c.connected = false)
    (h : history ops c = between ++ m :: later) (hbetween : ∀ m' ∈ between, ¬ m'.Links) :
    m.before.connected = false := by
  induction between generalizing ops c with
  | nil =>
    cases ops with
    | nil => cases h
    | cons op ops =>
      obtain ⟨rfl, -⟩ := List.cons.inj h
      exact hc
  | cons m' between ih =>
    cases ops with
    | nil => cases h
    | cons op ops =>
      obtain ⟨rfl, hrest⟩ := List.cons.inj h
      rw [List.forall_mem_cons] at hbetween
      exact ih (not_connected_run hc hbetween.1) hrest hbetween.2

/-- After a connection was lost, a commit confirms nothing until there is another one. -/
theorem commit_of_cuts {past between later : List (Moment ν)} {cut : Moment ν}
    {b : Delivery.Batch} (h : history ops c = past ++ cut :: (between ++ m :: later))
    (hcut : cut.Cuts) (hbetween : ∀ m' ∈ between, ¬ m'.Links) (hm : m.operation = .commit b) :
    m.answer = ⟨.error .notConnected, []⟩ := by
  obtain ⟨hmoment, ops', hrest⟩ := history_split h
  rw [hmoment] at hcut
  have hc : m.before.connected = false :=
    not_connected_of_history (not_connected_of_cuts hcut) hrest.symm hbetween
  obtain ⟨hanswer, -⟩ := history_split hrest.symm
  rw [hanswer, hm, moment, run, commit_of_not_connected hc]

end Moments

/-! ## The discipline of sessions -/

open Operation

/-- Whatever is done to a client and whatever its collector does: what is written on every
connection that was taken is a session, and its numbers rise until they start again; connecting
succeeds exactly if the collector welcomes the client; a client that has lost its connection commits
nothing until it has connected again; and disconnecting succeeds, if the command could be written,
exactly if the collector dismisses the client. -/
theorem session_discipline {π : Type} [Peer π] (host : String) (port : Nat) (s : Socket π)
    (ops : List Operation) :
    let c : Connection (Socket π) := { host, port, wire := s }
    let traced : Connection (Traced (Socket π)) := { host, port, wire := ⟨s, []⟩ }
    (history ops c).map Moment.answer = (runAll ops c).1 ∧
    runAll ops c = (runAll ops traced).map id (map Traced.inner) ∧
    (∀ frames ∈ sessions (runAll ops traced).2.wire.log, IsSession frames ∧
      (frames.length ≤ maxTxnr → (frames.map Frame.txnr).Pairwise (· < ·))) ∧
    (∀ m ∈ history ops c, m.operation = .connect →
      (m.answer.result = .ok () ↔ m.before.Welcomed)) ∧
    (∀ (past between later : List (Moment (Socket π))) (cut m : Moment (Socket π))
        (b : Delivery.Batch), history ops c = past ++ cut :: (between ++ m :: later) → cut.Cuts →
      (∀ m' ∈ between, ¬ m'.Links) → m.operation = .commit b →
      m.answer.result = .error .notConnected ∧ b.confirmAll m.answer.confirmed = b) ∧
    (∀ m ∈ history ops c, ∀ (arrival : Arrival) (peer : π), m.operation = .disconnect →
      m.before.connected = true →
      Peer.hear (Frame.encode ⟨m.before.nextTxnr, "close", []⟩) m.before.wire.peer =
        (.ok arrival, peer) →
      (m.answer.result = .ok () ↔ Dismissed m.before.nextTxnr
        (⟨peer, m.before.wire.unread ++ arrival.bytes, arrival.ending⟩ : Socket π))) := by
  intro c traced
  refine ⟨map_answer_history ops c, runAll_map Traced.forgets_inner ops traced, ?_, ?_, ?_, ?_⟩
  · have hnew : InOrder traced := ⟨nofun, nofun⟩
    intro frames hframes
    have hsession : IsSession frames := (inOrder_runAll hnew ops).lawful frames hframes
    exact ⟨hsession, hsession.rising⟩
  · intro m hm hconnect
    rw [moment_of_mem hm, hconnect]
    exact connect_eq_ok_iff_welcomed
  · intro past between later cut m b hsplit hcut hbetween hm
    rw [commit_of_cuts hsplit hcut hbetween hm]
    exact ⟨rfl, rfl⟩
  · intro m hm arrival peer hdisconnect hc hhear
    have hanswer : m.answer.result = m.before.disconnect.1 := by
      rw [moment_of_mem hm, hdisconnect]
      rfl
    rw [hanswer]
    exact disconnect_eq_ok_iff_dismissed hc hhear

end Connection

open Connection Operation

/-- A collector that follows a script gets whatever is written to it. -/
theorem Collector.exists_hear (bytes : Bytes) (c : Collector) :
    ∃ arrival peer, Peer.hear bytes c = (.ok arrival, peer) := ⟨_, _, rfl⟩

/-- A collector that closes the first session at once and grants the second, behind an answer to
another command; then it accepts a message, and it hangs up when it is asked to close. -/
def moody : Socket Collector where
  peer :=
    { scripts := [[⟨1, Text.Utf8.encode "0 serverclose 0\n", false, false⟩],
        [⟨1, Text.Utf8.encode "7 rsp 6 500 no\n1 rsp 6 200 OK\n", false, false⟩,
          ⟨1, Text.Utf8.encode "2 rsp 6 200 OK\n", false, false⟩, ⟨1, [], true, false⟩]] }

def oneMessage : Delivery.Batch := ⟨[⟨[0x61], false⟩]⟩

/-- Two attempts to connect with a commit after each, and a commit after the session. -/
def twoAttempts : List Operation :=
  [.connect, .commit oneMessage, .connect, .commit oneMessage, .disconnect, .commit oneMessage]

theorem session_discipline_moody :
    (sessions (runAll twoAttempts (⟨"collector", 2514, ⟨moody, []⟩, false, 1⟩ :
        Connection (Traced (Socket Collector)))).2.wire.log =
      [[⟨1, "open", offers⟩, ⟨2, "syslog", [0x61]⟩, ⟨3, "close", []⟩], [⟨1, "open", offers⟩]] ∧
      IsSession [⟨1, "open", offers⟩, ⟨2, "syslog", [0x61]⟩, ⟨3, "close", []⟩]) ∧
    ∃ refused unsent welcomed sent dismissed lost : Moment (Socket Collector),
      history twoAttempts { host := "collector", port := 2514, wire := moody } =
        [refused, unsent, welcomed, sent, dismissed, lost] ∧
      (refused.Cuts ∧ ¬ refused.before.Welcomed) ∧
      (unsent.answer.result = .error .notConnected ∧
        oneMessage.confirmAll unsent.answer.confirmed = oneMessage) ∧
      (welcomed.Links ∧ welcomed.before.Welcomed) ∧
      (∃ arrival peer, Peer.hear (Frame.encode ⟨3, "close", []⟩) dismissed.before.wire.peer =
          (.ok arrival, peer) ∧
        Dismissed 3 (⟨peer, dismissed.before.wire.unread ++ arrival.bytes, arrival.ending⟩ :
          Socket Collector)) ∧
      (lost.answer.result = .error .notConnected ∧
        oneMessage.confirmAll lost.answer.confirmed = oneMessage) := by
  obtain ⟨-, -, hsessions, hconnect, hcommit, hdisconnect⟩ :=
    session_discipline "collector" 2514 moody twoAttempts
  have hwritten : sessions (runAll twoAttempts (⟨"collector", 2514, ⟨moody, []⟩, false, 1⟩ :
      Connection (Traced (Socket Collector)))).2.wire.log =
      [[⟨1, "open", offers⟩, ⟨2, "syslog", [0x61]⟩, ⟨3, "close", []⟩], [⟨1, "open", offers⟩]] := by
    decide +kernel
  let c₁ : Connection (Socket Collector) := ⟨"collector", 2514, moody, false, 1⟩
  let c₂ := c₁.connect.2
  let c₃ := (c₂.commit oneMessage.pending).2.2
  let c₄ := c₃.connect.2
  let c₅ := (c₄.commit oneMessage.pending).2.2
  let c₆ := c₅.disconnect.2
  have hhistory : history twoAttempts c₁ = [moment .connect c₁, moment (.commit oneMessage) c₂,
      moment .connect c₃, moment (.commit oneMessage) c₄, moment .disconnect c₅,
      moment (.commit oneMessage) c₆] := rfl
  have hrefused : (moment .connect c₁).Cuts := by
    change c₁.connect.1 ≠ .ok ()
    decide +kernel
  have hwelcomed : c₃.connect.1 = .ok () := by decide +kernel
  have hdismissed : c₅.disconnect.1 = .ok () := by decide +kernel
  have hconnected : c₅.connected = true := by decide +kernel
  have hnext : c₅.nextTxnr = 3 := by decide +kernel
  obtain ⟨arrival, peer, hhear⟩ :=
    Collector.exists_hear (Frame.encode ⟨3, "close", []⟩) c₅.wire.peer
  have hclose := hdisconnect (moment .disconnect c₅) (by rw [hhistory]; simp) arrival peer rfl
    hconnected (by rw [← hhear, ← hnext]; rfl)
  refine ⟨⟨hwritten, (hsessions _ (hwritten ▸ List.mem_cons_self)).1⟩, _, _, _, _, _, _, hhistory,
    ⟨hrefused, fun hw => ?_⟩, ?_, ⟨⟨rfl, hwelcomed⟩, ?_⟩, ⟨arrival, peer, hhear, ?_⟩, ?_⟩
  · exact hrefused ((hconnect _ (by rw [hhistory]; simp) rfl).2 hw)
  · exact hcommit [] [] _ _ _ _ hhistory hrefused (List.forall_mem_nil _) rfl
  · exact (hconnect _ (by rw [hhistory]; simp) rfl).1 hwelcomed
  · rw [← hnext]
    exact hclose.1 hdismissed
  · exact hcommit [moment .connect c₁, moment (.commit oneMessage) c₂, moment .connect c₃,
      moment (.commit oneMessage) c₄] [] [] _ _ oneMessage hhistory trivial
      (List.forall_mem_nil _) rfl

end EventRelay.Relp
