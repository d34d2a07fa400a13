import EventRelay.Proofs.Delivery.Memory
import EventRelay.Proofs.Service.Allocation
import EventRelay.Service.Operation
import Mathlib.Data.Bool.Basic

/-!
# A service is honest

A client that is told that an event has arrived can rely on it. A batch is answered with its ids
only after a sender delivered all of it, for each event the line that carries its id, and until then
no id is acknowledged (`Sent`, `sent_of_sendEvents`). Over a whole history an id is reported as
acknowledged at most as often as it was handed out with such an answer (`affirmed_le_sent`): each
answer acknowledges it once, and each report of it uses that up.
-/

namespace EventRelay.Service

open Ack

/-- A request comes with a token and on a channel, when both are stripped of blanks. -/
def Caller.Names (token channel : String) (c : Caller) : Prop :=
  c.token.bind Text.nonBlank? = some token ∧ c.channel.bind Text.nonBlank? = some channel

instance (token channel : String) (c : Caller) : Decidable (c.Names token channel) :=
  inferInstanceAs (Decidable (_ ∧ _))

/-- A batch was delivered and the id is among those that its client is told. -/
def sends (token channel : String) (id : Nat) : Operation × Answer → Bool
  | (.sendEvents _ caller _ _, .sent receipt) =>
    caller.Names token channel && receipt.ackIds.contains id
  | _ => false

/-- A client is told that the id is acknowledged. -/
def affirms (token channel : String) (id : Nat) : Operation × Answer → Bool
  | (.getAcks caller _, .statuses s) => caller.Names token channel && s.get? id = some true
  | _ => false

/-- The message for an event. -/
def messageOf {σ : Type} (s : Service σ) (now : Int) (channel : String) (origin : Syslog.Origin)
    (ackId : Option Nat) (event : Event) : Syslog.Message :=
  { timestamp := now, hostname := s.hostname, appname := s.appname, channel, ackId, event, origin }

variable {σ : Type} [Delivery.Transport σ]

/-- How a batch comes to be acknowledged: each event gets an id, which waits; a sender delivers one
line for each event, the one that carries its id; and only then are the ids marked. -/
structure Sent (rounds : Nat) (now : Int) (origin : Syslog.Origin) (token channel : String)
    (events : List Event) (ids : List Nat) (s : Service σ) (registry : Registry)
    (wait : Delivery.Wait) (s' : Service σ) : Prop where
  allocated : idsFor token (some channel) events.length s.registry = (.ok ids, registry)
  length_eq : ids.length = events.length
  waits : ∀ id ∈ ids, registry.waiting? token channel id = some ⟨id, false, registry.now⟩
  sent : s.pool.send rounds .forever ((events.zip ids).map fun e =>
      Text.Utf8.encode (s.messageOf now channel origin (some e.2) e.1).line) =
    some (.returned wait (.ok ()) s'.pool)
  marked : s'.registry = acknowledge token channel ids registry

/-! ## Requests -/

section Plain

variable {σ : Type} {s s' : Service σ} {token channel : String} {id : Nat}

theorem messages_of_registry (s : Service σ) (registry : Registry) (now : Int) (channel : String)
    (origin : Syslog.Origin) (events : List Event) (ids : List Nat) :
    { s with registry }.messages now channel origin events ids =
      s.messages now channel origin events ids := by
  induction events generalizing ids with
  | nil => rfl
  | cons e es ih => simp only [messages, ih]

/-- Where there is an id for each event, the j-th message is that of the j-th event with the j-th
id. -/
theorem messages_eq_map_zip {now : Int} {origin : Syslog.Origin} {events : List Event}
    {ids : List Nat} (h : ids.length = events.length) :
    s.messages now channel origin events ids =
      (events.zip ids).map fun e => s.messageOf now channel origin (some e.2) e.1 := by
  induction events generalizing ids with
  | nil => rfl
  | cons e es ih =>
    cases ids with
    | nil => cases h
    | cons id ids =>
      rw [messages, List.tail_cons, ih (Nat.succ.inj h), List.zip_cons_cons, List.map_cons]
      rfl

theorem readEvents_eq_ok_iff {now : Int} {caller : Caller} {body : Bytes} {events : List Event} :
    readEvents now caller body = .ok (token, events) ↔
      caller.token.bind Text.nonBlank? = some token ∧ Event.readAll now body = .ok events ∧
        events ≠ [] := by
  unfold readEvents
  cases caller.token.bind Text.nonBlank? with
  | none => simp
  | some t =>
    cases Event.readAll now body with
    | error f => simp
    | ok es =>
      cases es with
      | nil =>
        simp only [reduceCtorEq, false_iff]
        rintro ⟨-, heq, hne⟩
        cases heq
        exact hne rfl
      | cons e es =>
        simp only [Except.ok.injEq, Prod.mk.injEq, Option.some.injEq, and_congr_right_iff]
        rintro rfl
        constructor
        · rintro rfl
          exact ⟨rfl, List.cons_ne_nil e es⟩
        · exact And.left

theorem token_of_readEvents {now : Int} {caller : Caller} {body : Bytes} {events : List Event}
    (h : readEvents now caller body = .ok (token, events)) :
    caller.token.bind Text.nonBlank? = some token :=
  (readEvents_eq_ok_iff.1 h).1

/-- A query is refused at once, or it is put to the registry and nothing else is done. -/
theorem getAcks_cases (caller : Caller) (body : Bytes) (s : Service σ) :
    (∃ f, s.getAcks caller body = (.error f, s)) ∨
      ∃ token channel query, s.getAcks caller body =
        ((s.registry.report token channel query).1.mapError .ack,
          { s with registry := (s.registry.report token channel query).2 }) := by
  unfold getAcks
  split
  · exact .inl ⟨_, rfl⟩
  · exact .inl ⟨_, rfl⟩
  · next token channel _ _ =>
    split
    · exact .inl ⟨_, rfl⟩
    · next query _ => exact .inr ⟨token, channel, query, rfl⟩

theorem unmarked_getAcks (caller : Caller) (body : Bytes) (s : Service σ) :
    Unmarked s.registry (s.getAcks caller body).2.registry := by
  rcases getAcks_cases caller body s with ⟨f, heq⟩ | ⟨t, c, query, heq⟩
  · rw [heq]
    exact .refl _
  · rw [heq]
    exact Unmarked.run (.report t c query) nofun nofun

/-- What a query reports as acknowledged was so before and is so no longer. -/
theorem acked_getAcks {caller : Caller} {body : Bytes} {statuses : Statuses}
    (hnames : caller.Names token channel) (h : s.getAcks caller body = (.ok statuses, s'))
    (hid : statuses.get? id = some true) :
    s.registry.acked token channel id = true ∧ s'.registry.acked token channel id = false := by
  unfold getAcks at h
  rw [hnames.1, hnames.2] at h
  dsimp only at h
  split at h
  · cases h
  · next query _ =>
    cases hreport : (s.registry.report token channel query).1 with
    | error e => rw [hreport] at h; cases h
    | ok found =>
      rw [hreport] at h
      cases h
      exact Registry.acked_of_report_true hreport hid

end Plain

variable {rounds : Nat} {s s' : Service σ} {token channel : String} {id : Nat}

/-- What comes of a request to send: it does not make sense, its ids are refused, its lines are not
delivered, or they are. -/
inductive Sending (rounds : Nat) (now : Int) (caller : Caller) (body : Bytes)
    (origin : Syslog.Origin) (s : Service σ) : Except Fault Receipt → Service σ → Prop
  | unread {f : Fault} (hread : readEvents now caller body = .error f) :
    Sending rounds now caller body origin s (.error f) s
  | refused {token : String} {events : List Event} {e : Refusal} {registry : Registry}
    (hread : readEvents now caller body = .ok (token, events))
    (hids : idsFor token (caller.channel.bind Text.nonBlank?) events.length s.registry =
      (.error e, registry)) :
    Sending rounds now caller body origin s (.error (.ack e)) { s with registry }
  | undelivered {token : String} {events : List Event} {ids : List Nat} {registry : Registry}
    {wait : Delivery.Wait} {f : Delivery.Fault} {pool : Delivery.Pool σ}
    (hread : readEvents now caller body = .ok (token, events))
    (hids : idsFor token (caller.channel.bind Text.nonBlank?) events.length s.registry =
      (.ok ids, registry))
    (hsend : s.pool.send rounds .forever (lines (s.messages now
      ((caller.channel.bind Text.nonBlank?).getD defaultChannel) origin events ids)) =
        some (.returned wait (.error f) pool)) :
    Sending rounds now caller body origin s (.error (.delivery f))
      { s with
        pool
        registry := release token ((caller.channel.bind Text.nonBlank?).getD defaultChannel) ids
          registry }
  | delivered {token : String} {events : List Event} {ids : List Nat} {registry : Registry}
    {wait : Delivery.Wait} {pool : Delivery.Pool σ}
    (hread : readEvents now caller body = .ok (token, events))
    (hids : idsFor token (caller.channel.bind Text.nonBlank?) events.length s.registry =
      (.ok ids, registry))
    (hsend : s.pool.send rounds .forever (lines (s.messages now
      ((caller.channel.bind Text.nonBlank?).getD defaultChannel) origin events ids)) =
        some (.returned wait (.ok ()) pool)) :
    Sending rounds now caller body origin s (.ok ⟨ids⟩)
      { s with
        pool
        registry := acknowledge token ((caller.channel.bind Text.nonBlank?).getD defaultChannel) ids
          registry }

theorem sending_of_sendEvents {now : Int} {caller : Caller} {body : Bytes} {origin : Syslog.Origin}
    {x : Except Fault Receipt} (h : s.sendEvents rounds now caller body origin = some (x, s')) :
    Sending rounds now caller body origin s x s' := by
  unfold sendEvents at h
  split at h
  · next f hread =>
    cases h
    exact .unread hread
  · next token events hread =>
    simp only [messages_of_registry] at h
    split at h
    · next e he =>
      cases h
      exact .refused hread (Prod.ext he rfl)
    · next ids hok =>
      split at h
      · cases h
      · cases h
      · next hsend =>
        cases h
        exact .undelivered hread (Prod.ext hok rfl) hsend
      · next hsend =>
        cases h
        exact .delivered hread (Prod.ext hok rfl) hsend

/-- A request to send either fails and acknowledges nothing, or acknowledges its ids after a sender
has delivered all its lines. -/
theorem sendEvents_cases {now : Int} {caller : Caller} {body : Bytes} {origin : Syslog.Origin}
    {x : Except Fault Receipt}
    (h : s.sendEvents rounds now caller body origin = some (x, s')) :
    (∃ f, x = .error f ∧ Unmarked s.registry s'.registry) ∨
      ∃ token events ids registry wait pool, readEvents now caller body = .ok (token, events) ∧
        idsFor token (caller.channel.bind Text.nonBlank?) events.length s.registry =
          (.ok ids, registry) ∧
        s.pool.send rounds .forever (lines (s.messages now
          ((caller.channel.bind Text.nonBlank?).getD defaultChannel) origin events ids)) =
            some (.returned wait (.ok ()) pool) ∧
        x = .ok ⟨ids⟩ ∧
        s' = { s with
          pool
          registry := acknowledge token ((caller.channel.bind Text.nonBlank?).getD defaultChannel)
            ids registry } := by
  cases sending_of_sendEvents h with
  | unread hread => exact .inl ⟨_, rfl, .refl _⟩
  | @refused token events e registry hread hids =>
    have hr := unmarked_idsFor token (caller.channel.bind Text.nonBlank?) events.length s.registry
    rw [hids] at hr
    exact .inl ⟨_, rfl, hr⟩
  | @undelivered token events ids registry wait f pool hread hids hsend =>
    have hr := unmarked_idsFor token (caller.channel.bind Text.nonBlank?) events.length s.registry
    rw [hids] at hr
    exact .inl ⟨_, rfl, hr.trans unmarked_release⟩
  | @delivered token events ids registry wait pool hread hids hsend =>
    exact .inr ⟨token, events, ids, registry, wait, pool, hread, hids, hsend, rfl, rfl⟩

/-- A request to send that is answered with ids on a channel has had its whole batch delivered. -/
theorem sent_of_sendEvents {now : Int} {caller : Caller} {body : Bytes} {origin : Syslog.Origin}
    {receipt : Receipt} (hnames : caller.Names token channel)
    (h : s.sendEvents rounds now caller body origin = some (.ok receipt, s')) :
    ∃ events registry wait, readEvents now caller body = .ok (token, events) ∧
      Sent rounds now origin token channel events receipt.ackIds s registry wait s' := by
  rcases sendEvents_cases h with ⟨f, hx, -⟩ | ⟨t, events, ids, registry, wait, pool, hread, hids,
    hsend, hx, rfl⟩
  · cases hx
  cases hx
  rw [hnames.2] at hids hsend
  obtain rfl : t = token := Option.some.inj ((token_of_readEvents hread).symm.trans hnames.1)
  obtain ⟨hlength, hfresh⟩ := idsFor_ok (congrArg Prod.fst hids)
  rw [hids] at hfresh
  rw [Option.getD_some, messages_eq_map_zip hlength, lines, List.map_map] at hsend
  exact ⟨events, registry, wait, hread, hids, hlength, hfresh, hsend, by rw [hnames.2]; rfl⟩

/-- A request to send acknowledges an id only by an answer that hands it out. -/
theorem acked_sendEvents {now : Int} {caller : Caller} {body : Bytes} {origin : Syslog.Origin}
    {x : Except Fault Receipt} (h : s.sendEvents rounds now caller body origin = some (x, s'))
    (hack : s'.registry.acked token channel id = true) :
    s.registry.acked token channel id = true ∨
      ∃ receipt, x = .ok receipt ∧ caller.Names token channel ∧ id ∈ receipt.ackIds := by
  rcases sendEvents_cases h with ⟨f, -, hr⟩ | ⟨t, events, ids, registry, wait, pool, hread, hids,
    -, rfl, rfl⟩
  · exact .inl (hr.acked _ _ _ hack)
  by_cases hid : t = token ∧ (caller.channel.bind Text.nonBlank?).getD defaultChannel = channel ∧
      id ∈ ids
  · obtain ⟨rfl, rfl, hid⟩ := hid
    refine .inr ⟨⟨ids⟩, rfl, ⟨token_of_readEvents hread, ?_⟩, hid⟩
    cases hnamed : caller.channel.bind Text.nonBlank? with
    | some channel => rfl
    | none =>
      -- a batch without a channel gets no ids
      rw [hnamed] at hids
      rw [idsFor_none_ok (congrArg Prod.fst hids)] at hid
      cases hid
  · have hbefore := acked_of_acked_acknowledge hid hack
    have hr : Unmarked s.registry registry := by
      have := unmarked_idsFor t (caller.channel.bind Text.nonBlank?) events.length s.registry
      rwa [hids] at this
    exact .inl (hr.acked _ _ _ hbefore)

theorem registry_closePool (h : s.closePool = some s') : s'.registry = s.registry := by
  unfold closePool at h
  split at h <;> cases h
  rfl

/-! ## One step -/

namespace Operation

variable {op : Operation} {a : Answer}

/-- Each answer to a batch acknowledges an id at most once, and each report of it uses that up. -/
theorem affirms_add_acked_le
    (hop : ∀ token channel id, op ≠ .registry (.markAcknowledged token channel id))
    (h : op.run rounds s = some (a, s')) :
    (affirms token channel id (op, a)).toNat + (s'.registry.acked token channel id).toNat ≤
      (s.registry.acked token channel id).toNat + (sends token channel id (op, a)).toNat := by
  have toNat_le {b b' : Bool} (hb : b = true → b' = true) : b.toNat ≤ b'.toNat :=
    Bool.toNat_le_toNat (Bool.le_iff_imp.2 hb)
  cases op with
  | sendEvents now caller body origin =>
    obtain ⟨⟨x, s₁⟩, hsend, heq⟩ := Option.map_eq_some_iff.1 h
    obtain rfl : s₁ = s' := by cases x <;> cases heq <;> rfl
    have haffirms : affirms token channel id (.sendEvents now caller body origin, a) = false := rfl
    cases hack : s₁.registry.acked token channel id with
    | false => simp [haffirms]
    | true =>
      rcases acked_sendEvents hsend hack with hbefore | ⟨receipt, rfl, hnames, hid⟩
      · simp [haffirms, hbefore]
      · cases heq
        simp [affirms, sends, hnames, hid]
  | getAcks caller body =>
    have hle := toNat_le ((unmarked_getAcks caller body s).acked token channel id)
    simp only [run] at h
    split at h
    · next statuses hstatuses =>
      cases h
      cases haffirms : affirms token channel id (.getAcks caller body, .statuses statuses) with
      | false =>
        simp only [sends, Bool.toNat_false]
        omega
      | true =>
        simp only [affirms, Bool.and_eq_true, decide_eq_true_eq] at haffirms
        obtain ⟨hbefore, hafter⟩ := acked_getAcks haffirms.1 (Prod.ext hstatuses rfl) haffirms.2
        rw [hbefore, hafter]
        exact Nat.le_add_right _ _
    · cases h
      simp only [affirms, sends, Bool.toNat_false]
      omega
  | registry operation =>
    cases h
    have hmark : ¬ (operation.moment s.registry).Marks token channel id := by
      rintro rfl
      exact hop token channel id rfl
    have hle := toNat_le (Ack.Operation.acked_of_acked_run operation hmark)
    simp only [affirms, sends, Bool.toNat_false]
    omega
  | closePool =>
    obtain ⟨s₁, hclose, heq⟩ := Option.map_eq_some_iff.1 h
    cases heq
    rw [registry_closePool hclose]
    simp [affirms]

/-! ## Whole histories -/

variable {ops : List Operation} {answers : List Answer}

theorem runAll_cons {op : Operation} (h : runAll rounds (op :: ops) s = some (answers, s')) :
    ∃ a rest s₁, answers = a :: rest ∧ op.run rounds s = some (a, s₁) ∧
      runAll rounds ops s₁ = some (rest, s') := by
  unfold runAll at h
  split at h
  · cases h
  · next a s₁ hrun =>
    obtain ⟨⟨rest, s₂⟩, hrest, heq⟩ := Option.map_eq_some_iff.1 h
    cases heq
    exact ⟨a, rest, s₁, rfl, hrun, hrest⟩

theorem runAll_cons_of_run {op : Operation} {a : Answer} {s₁ : Service σ}
    (h : op.run rounds s = some (a, s₁)) :
    runAll rounds (op :: ops) s = (runAll rounds ops s₁).map fun x => (a :: x.1, x.2) := by
  rw [runAll, h]

theorem runAll_take (h : runAll rounds ops s = some (answers, s')) (n : Nat) :
    ∃ sₙ, runAll rounds (ops.take n) s = some (answers.take n, sₙ) := by
  induction n generalizing ops answers s with
  | zero => exact ⟨s, rfl⟩
  | succ n ih =>
    cases ops with
    | nil => cases h; exact ⟨_, rfl⟩
    | cons op ops =>
      obtain ⟨a, rest, s₁, rfl, hrun, hrest⟩ := runAll_cons h
      obtain ⟨sₙ, hn⟩ := ih hrest
      exact ⟨sₙ, by rw [List.take_succ_cons, List.take_succ_cons, runAll_cons_of_run hrun, hn]; rfl⟩

/-- The operation at a place of a history was done to what the history before it leaves. -/
theorem run_of_getElem? (h : runAll rounds ops s = some (answers, s')) {i : Nat}
    {op : Operation} {a : Answer} (hi : (ops.zip answers)[i]? = some (op, a)) :
    ∃ sᵢ sᵢ', runAll rounds (ops.take i) s = some (answers.take i, sᵢ) ∧
      op.run rounds sᵢ = some (a, sᵢ') ∧
      runAll rounds (ops.take (i + 1)) s = some (answers.take (i + 1), sᵢ') := by
  induction i generalizing ops answers s with
  | zero =>
    cases ops with
    | nil => cases hi
    | cons op' ops =>
      obtain ⟨a', rest, s₁, rfl, hrun, -⟩ := runAll_cons h
      cases hi
      exact ⟨s, s₁, rfl, hrun, by rw [List.take_succ_cons, runAll_cons_of_run hrun]; rfl⟩
  | succ i ih =>
    cases ops with
    | nil => cases hi
    | cons op' ops =>
      obtain ⟨a', rest, s₁, rfl, hrun, hrest⟩ := runAll_cons h
      obtain ⟨sᵢ, sᵢ', hbefore, hop, hafter⟩ := ih hrest hi
      refine ⟨sᵢ, sᵢ', ?_, hop, ?_⟩
      · rw [List.take_succ_cons, List.take_succ_cons, runAll_cons_of_run hrun, hbefore]; rfl
      · rw [List.take_succ_cons, List.take_succ_cons, runAll_cons_of_run hrun, hafter]; rfl

/-- In a history without marks of its own, what is reported and what is still acknowledged is no
more than what was acknowledged at first and handed out since. -/
theorem countP_affirms_le
    (hops : ∀ token channel id, .registry (.markAcknowledged token channel id) ∉ ops)
    (h : runAll rounds ops s = some (answers, s')) :
    (ops.zip answers).countP (affirms token channel id) +
        (s'.registry.acked token channel id).toNat ≤
      (s.registry.acked token channel id).toNat +
        (ops.zip answers).countP (sends token channel id) := by
  induction ops generalizing answers s with
  | nil => cases h; exact Nat.le_of_eq (Nat.add_comm ..)
  | cons op ops ih =>
    obtain ⟨a, rest, s₁, rfl, hrun, hrest⟩ := runAll_cons h
    have hstep : (affirms token channel id (op, a)).toNat +
        (s₁.registry.acked token channel id).toNat ≤
          (s.registry.acked token channel id).toNat + (sends token channel id (op, a)).toNat :=
      affirms_add_acked_le (fun t c i heq => hops t c i (heq ▸ List.mem_cons_self)) hrun
    have hlater := ih (fun t c i hmem => hops t c i (List.mem_cons_of_mem _ hmem)) hrest
    have toNat_eq (b : Bool) : (if b = true then 1 else 0) = b.toNat := by cases b <;> rfl
    rw [List.zip_cons_cons, List.countP_cons, List.countP_cons, toNat_eq, toNat_eq]
    omega

end Operation

/-- In every history from an empty registry, and at each point of it, an id has been reported as
acknowledged at most as often as it was handed out by answers to batches, also if it is still
acknowledged; and each of these answers was given after a sender delivered the whole batch, while
the id waited without being acknowledged. -/
theorem affirmed_le_sent {ops : List Operation} {answers : List Answer}
    (hempty : s.registry.sessions = ∅)
    (hops : ∀ token channel id, .registry (.markAcknowledged token channel id) ∉ ops)
    (h : Operation.runAll rounds ops s = some (answers, s')) (token channel : String) (id : Nat) :
    (∀ n, ∃ sₙ, Operation.runAll rounds (ops.take n) s = some (answers.take n, sₙ) ∧
      ((ops.zip answers).take n).countP (affirms token channel id) +
          (sₙ.registry.acked token channel id).toNat ≤
        ((ops.zip answers).take n).countP (sends token channel id)) ∧
    ∀ i now caller body origin receipt,
      (ops.zip answers)[i]? = some (.sendEvents now caller body origin, .sent receipt) →
      caller.Names token channel →
      ∃ sᵢ sᵢ' events registry wait,
        Operation.runAll rounds (ops.take i) s = some (answers.take i, sᵢ) ∧
        Operation.runAll rounds (ops.take (i + 1)) s = some (answers.take (i + 1), sᵢ') ∧
        readEvents now caller body = .ok (token, events) ∧
        Sent rounds now origin token channel events receipt.ackIds sᵢ registry wait sᵢ' := by
  constructor
  · intro n
    obtain ⟨sₙ, hn⟩ := Operation.runAll_take h n
    refine ⟨sₙ, hn, ?_⟩
    have hle : ((ops.take n).zip (answers.take n)).countP (affirms token channel id) +
          (sₙ.registry.acked token channel id).toNat ≤
        (s.registry.acked token channel id).toNat +
          ((ops.take n).zip (answers.take n)).countP (sends token channel id) :=
      Operation.countP_affirms_le (fun t c i hmem => hops t c i (List.mem_of_mem_take hmem)) hn
    have hnone : s.registry.acked token channel id = false := by
      simp [Registry.acked, Registry.waiting?, Registry.channel?, hempty]
    rw [hnone, Bool.toNat_false, Nat.zero_add] at hle
    rwa [List.zip, List.take_zipWith]
  · intro i now caller body origin receipt hi hnames
    obtain ⟨sᵢ, sᵢ', hbefore, hop, hafter⟩ := Operation.run_of_getElem? h hi
    obtain ⟨⟨x, s₁⟩, hsend, heq⟩ := Option.map_eq_some_iff.1 hop
    cases x with
    | error f => cases heq
    | ok receipt' =>
      cases heq
      obtain ⟨events, registry, wait, hread, hsent⟩ := sent_of_sendEvents hnames hsend
      exact ⟨sᵢ, _, events, registry, wait, hbefore, hafter, hread, hsent⟩

/-- A service with one sender, which keeps its messages in memory. -/
def oneSender : Service Delivery.Memory where
  registry := {}
  pool := { senders := #[{ transport := {}, policy := {} }], nonempty := by decide }

/-- The client that sends and asks. -/
def client : Caller := { token := some "t", channel := some " c " }

/-- A body with one event. -/
def singleEvent : Bytes := Text.Utf8.encode "\x7b\"event\":\"e\"\x7d"

/-- An event is sent on a channel and asked about twice, with a sweep in between. -/
def askedTwice : List Operation :=
  [.sendEvents 0 client singleEvent {},
    .getAcks client (Text.Utf8.encode "\x7b\"acks\":[0]\x7d"), .registry .sweep,
    .getAcks client (Text.Utf8.encode "\x7b\"acks\":[0]\x7d")]

/-- What the line of an event of `client` at time zero is to be. -/
def expectedLine (ackId text : String) : String :=
  "<14>1 1970-01-01T00:00:00.000Z localhost hec-gateway - - " ++
    "[hec_metadata@48577 channel=\"c\" ack_id=\"" ++ ackId ++
    "\" time_source=\"generated\" time_parsed=\"false\" time=\"0\"] " ++ text

/-- The receipt of a batch that was delivered. -/
def Answer.receipt? : Answer → Option Receipt
  | .sent receipt => some receipt
  | _ => none

theorem affirmed_le_sent_askedTwice :
    ∃ answers s', Operation.runAll 2 askedTwice oneSender = some (answers, s') ∧
      (askedTwice.zip answers).countP (affirms "t" "c" 0) = 1 ∧
      (∃ sₙ, Operation.runAll 2 (askedTwice.take 4) oneSender = some (answers.take 4, sₙ) ∧
        ((askedTwice.zip answers).take 4).countP (affirms "t" "c" 0) +
            (sₙ.registry.acked "t" "c" 0).toNat ≤
          ((askedTwice.zip answers).take 4).countP (sends "t" "c" 0)) ∧
      ∃ s₁ events registry wait, Sent 2 0 {} "t" "c" events [0] oneSender registry wait s₁ ∧
        (events.zip [0]).map (fun e => (oneSender.messageOf 0 "c" {} (some e.2) e.1).line) =
          [expectedLine "0" "e"] ∧
        s₁.pool.delivered? 0 = some [expectedLine "0" "e"] := by
  have hanswers : (Operation.runAll 2 askedTwice oneSender).map (fun x =>
      ((askedTwice.zip x.1).countP (affirms "t" "c" 0), x.1.head?.bind Answer.receipt?)) =
        some (1, some ⟨[0]⟩) := by decide +kernel
  obtain ⟨⟨answers, s'⟩, h, heq⟩ := Option.map_eq_some_iff.1 hanswers
  obtain ⟨hone, hreceipt⟩ := Prod.mk.inj heq
  have hops : ∀ token channel id, .registry (.markAcknowledged token channel id) ∉ askedTwice := by
    intro token channel id
    simp [askedTwice]
  obtain ⟨hcount, hsends⟩ := affirmed_le_sent rfl hops h "t" "c" 0
  obtain ⟨a, rest, -, rfl, -, -⟩ := Operation.runAll_cons h
  obtain rfl : a = .sent ⟨[0]⟩ := by
    cases a with
    | sent receipt =>
      cases hreceipt
      rfl
    | _ => cases hreceipt
  obtain ⟨s₀, s₁, events, registry, wait, hbefore, hafter, hread, hsent⟩ :=
    hsends 0 0 client singleEvent {} ⟨[0]⟩ rfl (by decide +kernel)
  cases hbefore
  refine ⟨_, s', h, hone, hcount 4, s₁, events, registry, wait, hsent, ?_, ?_⟩
  · have hlines : (readEvents 0 client singleEvent).toOption.map (fun x =>
        (x.2.zip [0]).map fun e => (oneSender.messageOf 0 "c" {} (some e.2) e.1).line) =
          some [expectedLine "0" "e"] := by
      decide +kernel
    rw [hread] at hlines
    exact Option.some.inj hlines
  · have hdelivered : (Operation.runAll 2 (askedTwice.take 1) oneSender).map
        (fun x => x.2.pool.delivered? 0) = some (some [expectedLine "0" "e"]) := by
      decide +kernel
    exact Option.some.inj ((congrArg _ hafter).symm.trans hdelivered)

end EventRelay.Service
