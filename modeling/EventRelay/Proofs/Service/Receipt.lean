import EventRelay.Proofs.Delivery.Confirmation
import EventRelay.Proofs.Service.Honesty

/-!
# What a receipt stands for

A request to send that succeeds has sent one batch by one sender, a message for each event, and each
message was confirmed. Events on a channel got the next ids of the channel, the j-th message carries
the j-th of them, and all of them are acknowledged now; events that name no channel got none. No
other channel has changed (`sendEvents_succeeded`).
-/

namespace EventRelay.Service

open Ack

variable {σ : Type} {s s' : Service σ} {now : Int} {channel : String} {origin : Syslog.Origin}

/-- Consecutive ids go to the messages in the order of the events. -/
theorem messages_range' (events : List Event) (start : Nat) :
    s.messages now channel origin events (List.range' start events.length) =
      events.mapIdx fun j e => s.messageOf now channel origin (some (start + j)) e := by
  rw [messages_eq_map_zip List.length_range', ← List.zipIdx_eq_zip_range',
    List.mapIdx_eq_zipIdx_map, List.zipIdx_eq_map_add, List.map_map]
  rfl

theorem messages_nil (events : List Event) :
    s.messages now channel origin events [] =
      events.map (s.messageOf now channel origin none) := by
  induction events with
  | nil => rfl
  | cons e es ih =>
    rw [List.map_cons, ← ih]
    rfl

variable [Delivery.Transport σ] {rounds : Nat} {caller : Caller} {body : Bytes}
  {receipt : Receipt}

/-- A request to send that succeeds had a token and some events, and one sender has sent a message
for each event, all of them as one batch, and had them confirmed. On a channel the ids are the next
ones of the channel, in the order of the events; the counter has moved past them, and they are
acknowledged now. Without a channel there are no ids and the messages are those of the default
channel. Neither the ids nor the counter of another channel change. -/
theorem sendEvents_succeeded
    (h : s.sendEvents rounds now caller body origin = some (.ok receipt, s')) :
    ∃ token events messages,
      caller.token.bind Text.nonBlank? = some token ∧ Event.readAll now body = .ok events ∧
      events ≠ [] ∧
      s.pool.Carried rounds .forever (messages.map fun m => Text.Utf8.encode m.line) s'.pool ∧
      (∀ channel, caller.channel.bind Text.nonBlank? = some channel →
        let c := s.registry.channelD token channel
        receipt.ackIds = List.range' c.nextId events.length ∧
        receipt.toJson.get? "ackID" = some (.number (.integer c.nextId)) ∧
        receipt.toJson.get? "ackIDs" =
          some (.array (receipt.ackIds.map fun id : Nat => .number (.integer id))) ∧
        (messages = events.mapIdx fun j e =>
          s.messageOf now channel origin (some (c.nextId + j)) e) ∧
        c.Enrols true s.registry.now events.length (s'.registry.channelD token channel) ∧
        ∀ token' channel', ¬ (token = token' ∧ channel = channel') →
          s'.registry.channelD token' channel' = s.registry.channelD token' channel') ∧
      (caller.channel.bind Text.nonBlank? = none →
        receipt.ackIds = [] ∧ receipt.toJson.get? "ackID" = none ∧
        receipt.toJson.get? "ackIDs" = none ∧
        messages = events.map (s.messageOf now defaultChannel origin none) ∧
        ∀ token' channel',
          s'.registry.channelD token' channel' = s.registry.channelD token' channel') := by
  cases sending_of_sendEvents h with
  | @delivered token events ids registry wait pool hread hids hsend =>
    obtain ⟨htoken, hevents, hsome⟩ := readEvents_eq_ok_iff.1 hread
    refine ⟨token, events, _, htoken, hevents, hsome, Delivery.Pool.carried_of_send_ok hsend,
      ?_, ?_⟩
    · intro channel hchannel
      rw [hchannel, idsFor] at hids
      have hok := allocate_ok (congrArg Prod.fst hids)
      have hallocated := confined_allocate token channel events.length s.registry
      rw [hids] at hok hallocated
      obtain ⟨rfl, henrols⟩ := hok
      obtain ⟨e, es, rfl⟩ := List.exists_cons_of_ne_nil hsome
      rw [hchannel]
      refine ⟨rfl, rfl, rfl, messages_range' .., enrols_acknowledge henrols, ?_⟩
      intro token' channel' hne
      exact (hallocated.trans confined_acknowledge).channelD_eq hne
    · intro hchannel
      rw [hchannel] at hids ⊢
      rcases idsFor_none_cases token events.length s.registry with
        ⟨-, hanswer⟩ | ⟨-, hanswer, hsame⟩
      · rw [hids] at hanswer
        cases hanswer
      · rw [hids] at hanswer hsame
        cases hanswer
        exact ⟨rfl, rfl, rfl, messages_nil events, hsame⟩

/-- Two events in one body. -/
def pairOfEvents : Bytes := Text.Utf8.encode "\x7b\"event\":\"e\"\x7d\x7b\"event\":\"f\"\x7d"

theorem sendEvents_succeeded_pairOfEvents :
    ∃ (receipt : Receipt) (s' : Service Delivery.Memory) (messages : List Syslog.Message),
      oneSender.sendEvents 2 0 client pairOfEvents {} = some (.ok receipt, s') ∧
      receipt.ackIds = [0, 1] ∧ receipt.toJson.get? "ackID" = some (.number (.integer 0)) ∧
      oneSender.pool.Carried 2 .forever
        (messages.map fun m => Text.Utf8.encode m.line) s'.pool ∧
      messages.map Syslog.Message.line = [expectedLine "0" "e", expectedLine "1" "f"] ∧
      s'.pool.delivered? 0 = some [expectedLine "0" "e", expectedLine "1" "f"] ∧
      (oneSender.registry.channelD "t" "c").Enrols true 0 2 (s'.registry.channelD "t" "c") := by
  have hanswer : (oneSender.sendEvents 2 0 client pairOfEvents {}).map (fun x =>
      (x.1.toOption.map Receipt.ackIds, x.2.pool.delivered? 0)) =
        some (some [0, 1], some [expectedLine "0" "e", expectedLine "1" "f"]) := by
    decide +kernel
  obtain ⟨⟨x, s'⟩, h, heq⟩ := Option.map_eq_some_iff.1 hanswer
  obtain ⟨hids, hdelivered⟩ := Prod.mk.inj heq
  cases x with
  | error f => cases hids
  | ok receipt =>
    have hreceipt : receipt.ackIds = [0, 1] := Option.some.inj hids
    obtain ⟨token, events, messages, htoken, hevents, -, hcarried, hnamed, -⟩ :=
      sendEvents_succeeded h
    obtain rfl : "t" = token := by
      have ht : client.token.bind Text.nonBlank? = some "t" := by decide +kernel
      exact Option.some.inj (ht.symm.trans htoken)
    obtain ⟨hrange, hfirst, -, hmessages, henrols, -⟩ := hnamed "c" (by decide +kernel)
    have htwo : events.length = 2 := by
      have hlength := congrArg List.length hrange
      rw [hreceipt, List.length_range'] at hlength
      exact hlength.symm
    rw [htwo] at henrols
    refine ⟨receipt, s', messages, h, hreceipt, hfirst, hcarried, ?_, hdelivered, henrols⟩
    have hlines : (Event.readAll 0 pairOfEvents).toOption.map (fun events =>
        (events.mapIdx fun j e =>
          oneSender.messageOf 0 "c" {} (some (0 + j)) e).map Syslog.Message.line) =
            some [expectedLine "0" "e", expectedLine "1" "f"] := by decide +kernel
    rw [hevents] at hlines
    rw [hmessages]
    exact Option.some.inj hlines

end EventRelay.Service
