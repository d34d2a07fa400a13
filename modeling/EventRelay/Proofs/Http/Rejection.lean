import EventRelay.Http.Server
import EventRelay.Proofs.Event.Body
import EventRelay.Proofs.Service.Honesty

/-!
# Rejected requests have no effect

A request with something amiss, be it in its headers, in its body or in what the body says, leaves
everything as it was. Four statuses tell of that (`rejections`). The service looks at what a request
says before it changes anything, in `readEvents` for events and in `queriedIds?` for queries. What
can go wrong later is a limit of the registry (`isBusy_of_idsFor`) or the delivery, and has another
status.

`unchanged_of_rejected` puts this together, and says of spoiled bodies and of queries for what is no
id that they are always rejected.
-/

namespace EventRelay

open Service Http

/-- The statuses of requests that are rejected for what they say. -/
def Http.rejections : List Nat := [400, 401, 411, 413]

/-! ## Queries -/

namespace Ack.Registry

variable {r : Registry} {token channel : String}

/-- A query with an element that is no id is refused as a whole. -/
theorem queriedIds?_of_not_id {query : Json} {items : List Json}
    (h : query.get? "acks" = some (.array items)) (hitem : ∃ v ∈ items, v.int64? = none) :
    ∃ value, queriedIds? query = some (.error (.invalidId value)) := by
  unfold queriedIds?
  rw [h, Option.bind_some, Json.array?, Option.map_some]
  simp only [Option.some.injEq]
  clear h
  induction items with
  | nil =>
    obtain ⟨v, hmem, -⟩ := hitem
    cases hmem
  | cons v items ih =>
    cases hv : v.int64? with
    | none => exact ⟨v.compact, by simp only [List.mapM_cons, hv, bind, Except.bind]⟩
    | some id =>
      obtain ⟨w, hmem, hw⟩ := hitem
      have hrest : w ∈ items := by
        rcases List.mem_cons.1 hmem with rfl | hmem
        · rw [hv] at hw
          cases hw
        · exact hmem
      obtain ⟨value, hvalue⟩ := ih ⟨w, hrest, hw⟩
      exact ⟨value, by simp only [List.mapM_cons, hv, bind, Except.bind, hvalue]⟩

/-- A query that is refused for an element that is no id changes nothing. -/
theorem report_of_invalidId {query : Json} {value : String}
    (h : (r.report token channel query).1 = .error (.invalidId value)) :
    (r.report token channel query).2 = r := by
  unfold report at h ⊢
  split
  · rfl
  · rfl
  · next ids hids =>
    rw [hids] at h
    dsimp only at h
    split at h
    · cases h
    · rw [onExisting_answer] at h
      cases hc : r.channel? token channel with
      | none => rw [hc] at h; cases h
      | some c => rw [hc] at h; cases h

end Ack.Registry

/-! ## The service -/

namespace Service

variable {σ : Type} {s s' : Service σ} {f : Fault} {caller : Caller} {body : Bytes}

theorem readEvents_of_spoiled (now : Int) (caller : Caller) (h : ∃ n, Event.SpoiledAfter n body) :
    ∃ f, readEvents now caller body = .error f ∧ (statusOf f).1 ∈ rejections := by
  obtain ⟨g, hg⟩ := (Event.exists_spoiledAfter_iff now).1 h
  unfold readEvents
  split
  · exact ⟨.tokenMissing, rfl, by decide⟩
  · rw [hg]
    refine ⟨_, rfl, ?_⟩
    cases g <;> exact List.mem_cons_self

theorem sendEvents_of_rejected [Delivery.Transport σ] {rounds : Nat} {now : Int}
    {origin : Syslog.Origin} (h : s.sendEvents rounds now caller body origin = some (.error f, s'))
    (hf : (statusOf f).1 ∈ rejections) : s' = s := by
  cases sending_of_sendEvents h with
  | unread hread => rfl
  | @refused token events e registry hread hids =>
    -- the registry is at a limit, which is no fault of the request
    have hbusy := isBusy_of_idsFor (congrArg Prod.fst hids)
    cases e with
    | busy capacity limit => exact absurd hf (by decide : 503 ∉ rejections)
    | _ => cases hbusy
  | undelivered hread hids hsend => exact absurd hf (by decide : 500 ∉ rejections)

theorem getAcks_of_rejected (h : s.getAcks caller body = (.error f, s'))
    (hf : (statusOf f).1 ∈ rejections) : s' = s := by
  rcases getAcks_cases caller body s with ⟨f', heq⟩ | ⟨token, channel, query, heq⟩
  · rw [heq] at h
    cases h
    rfl
  · rw [heq] at h
    cases hx : (s.registry.report token channel query).1 with
    | ok statuses => rw [hx] at h; cases h
    | error e =>
      rw [hx] at h
      cases h
      cases e with
      | invalidId value => rw [Ack.Registry.report_of_invalidId hx]
      | busy capacity limit => exact absurd hf (by decide : 503 ∉ rejections)
      | sessionNotFound => exact absurd hf (by decide : 404 ∉ rejections)
      | channelNotFound => exact absurd hf (by decide : 404 ∉ rejections)

theorem getAcks_of_not_id {query : Json} {items : List Json} (caller : Caller) (s : Service σ)
    (hquery : readQuery body = .ok query) (hacks : query.get? "acks" = some (.array items))
    (hitem : ∃ v ∈ items, v.int64? = none) :
    ∃ f, s.getAcks caller body = (.error f, s) ∧ (statusOf f).1 ∈ rejections := by
  obtain ⟨value, hids⟩ := Ack.Registry.queriedIds?_of_not_id hacks hitem
  unfold getAcks
  split
  · exact ⟨_, rfl, by decide⟩
  · exact ⟨_, rfl, by decide⟩
  · next token channel _ _ =>
    rw [hquery]
    have hreport : s.registry.report token channel query =
        (.error (.invalidId value), s.registry) := by simp only [Ack.Registry.report, hids]
    refine ⟨.ack (.invalidId value), ?_, List.mem_cons_self⟩
    simp only [hreport]
    rfl

end Service

/-! ## The server -/

namespace Http

theorem status_refusal? {limit : Nat} {task : String} {h : Headers} {response : Response}
    (hrefusal : h.refusal? limit task = some response) : response.status ∈ rejections := by
  unfold Headers.refusal? at hrefusal
  split at hrefusal
  · split at hrefusal
    · cases hrefusal
    · cases hrefusal
      exact (by decide : 411 ∈ rejections)
  · split at hrefusal
    · cases hrefusal
      exact (by decide : 400 ∈ rejections)
    · split at hrefusal
      · cases hrefusal
        exact (by decide : 413 ∈ rejections)
      · cases hrefusal

/-- A body that stops is read whole, or it is refused. -/
theorem read_of_stops {b : Incoming} (h : b.stop ≠ .stalled) (limit : Nat) :
    (∃ f, b.read limit = some (.error f)) ∨ b.read limit = some (.ok b.parts.flatten) := by
  unfold Incoming.read
  generalize 0 = n
  generalize b.parts = parts
  induction parts generalizing n with
  | nil =>
    cases hstop : b.stop with
    | whole => exact .inr rfl
    | cut => exact .inl ⟨.cut, rfl⟩
    | stalled => exact absurd hstop h
  | cons part parts ih =>
    rw [collect]
    split
    · exact .inl ⟨.tooLarge, rfl⟩
    · rcases ih (n + part.length) with ⟨f, hf⟩ | hok
      · exact .inl ⟨f, by rw [hf]; rfl⟩
      · exact .inr (by rw [hok]; rfl)

namespace Server

variable {σ : Type}

/-- The body of a request that stops is handed on, or the request is rejected. -/
theorem readBody_of_stops {r : Request} (h : r.body.stop ≠ .stalled) (limit : Nat) (route : Route) :
    (∃ response, readBody limit route r = some (.error response) ∧
      response.status ∈ rejections) ∨
      readBody limit route r = some (.ok r.body.parts.flatten) := by
  unfold readBody
  cases hrefusal : r.headers.refusal? limit (task route) with
  | some response => exact .inl ⟨response, rfl, status_refusal? hrefusal⟩
  | none =>
    rcases read_of_stops h limit with ⟨f, hf⟩ | hok
    · refine .inl ⟨bodyRefusal f, by rw [hf]; rfl, ?_⟩
      cases f <;> decide
    · exact .inr (by rw [hok]; rfl)

theorem answerQuery_of_rejected {r : Request} {body : Bytes} {s s' : Server σ} {response : Response}
    (h : answerQuery r body s = (response, s')) (hstatus : response.status ∈ rejections) :
    s' = s := by
  unfold answerQuery at h
  dsimp only at h
  split at h
  · cases h
    exact absurd hstatus (by decide : 200 ∉ rejections)
  · next f hf =>
    cases h
    have hsame : (s.service.getAcks (caller r) body).2 = s.service :=
      getAcks_of_rejected (Prod.ext hf rfl) hstatus
    rw [hsame]

variable [Delivery.Transport σ] {rounds : Nat} {now : Int} {r : Request} {s s' : Server σ}
  {response : Response}

theorem takeEvents_of_rejected {body : Bytes}
    (h : takeEvents rounds now r body s = some (response, s'))
    (hstatus : response.status ∈ rejections) : s' = s := by
  obtain ⟨⟨x, service⟩, hsend, hresult⟩ := Option.map_eq_some_iff.1 h
  cases x with
  | ok receipt =>
    cases hresult
    exact absurd hstatus (by decide : 200 ∉ rejections)
  | error f =>
    cases hresult
    rw [sendEvents_of_rejected hsend hstatus]

theorem handle_of_rejected (h : handle rounds now r s = some (response, s'))
    (hstatus : response.status ∈ rejections) : s' = s := by
  unfold handle at h
  split at h
  · cases h
    rfl
  · cases h
    rfl
  · split at h
    · cases h
    · cases h
      rfl
    · exact takeEvents_of_rejected h hstatus
  · split at h
    · cases h
    · cases h
      rfl
    · exact answerQuery_of_rejected (Option.some.inj h) hstatus

theorem handle_of_spoiled (hroute : Route.of? r.method r.path = some .events)
    (hstops : r.body.stop ≠ .stalled) (h : ∃ n, Event.SpoiledAfter n r.body.parts.flatten) :
    ∃ response, handle rounds now r s = some (response, s) ∧ response.status ∈ rejections := by
  unfold handle
  rw [hroute]
  rcases readBody_of_stops hstops s.maxBody .events with ⟨response, hread, hstatus⟩ | hread
  · exact ⟨response, by rw [hread], hstatus⟩
  · obtain ⟨f, hf, hstatus⟩ := readEvents_of_spoiled now (caller r) h
    refine ⟨.ofFault f, ?_, hstatus⟩
    simp only [hread, takeEvents, sendEvents, hf, Option.map_some]

theorem handle_of_not_id {query : Json} {items : List Json}
    (hroute : Route.of? r.method r.path = some .acks) (hstops : r.body.stop ≠ .stalled)
    (hquery : readQuery r.body.parts.flatten = .ok query)
    (hacks : query.get? "acks" = some (.array items)) (hitem : ∃ v ∈ items, v.int64? = none) :
    ∃ response, handle rounds now r s = some (response, s) ∧ response.status ∈ rejections := by
  unfold handle
  rw [hroute]
  rcases readBody_of_stops hstops s.maxBody .acks with ⟨response, hread, hstatus⟩ | hread
  · exact ⟨response, by rw [hread], hstatus⟩
  · obtain ⟨f, hf, hstatus⟩ := getAcks_of_not_id (caller r) s.service hquery hacks hitem
    refine ⟨.ofFault f, ?_, hstatus⟩
    simp only [hread, answerQuery, hf]

/-- A request whose answer has one of the four statuses leaves the server as it was, its registry,
the turn of its senders, the senders and their transports. Every spoiled batch of events, wherever
it is spoiled, and every query for what is no id is answered with one of them, unless the client
never sends all of it. -/
theorem unchanged_of_rejected (rounds : Nat) (now : Int) (r : Request) (s : Server σ) :
    (∀ response s', handle rounds now r s = some (response, s') → response.status ∈ rejections →
      s' = s) ∧
    (r.body.stop ≠ .stalled → Route.of? r.method r.path = some .events →
      ∀ n, Event.SpoiledAfter n r.body.parts.flatten →
      ∃ response, handle rounds now r s = some (response, s) ∧ response.status ∈ rejections) ∧
    (r.body.stop ≠ .stalled → Route.of? r.method r.path = some .acks →
      ∀ query items, readQuery r.body.parts.flatten = .ok query →
      query.get? "acks" = some (.array items) → (∃ v ∈ items, v.int64? = none) →
      ∃ response, handle rounds now r s = some (response, s) ∧ response.status ∈ rejections) := by
  refine ⟨fun response s' => handle_of_rejected, ?_, ?_⟩
  · intro hstops hroute n hspoiled
    exact handle_of_spoiled hroute hstops ⟨n, hspoiled⟩
  · intro hstops hroute query items hquery hacks hitem
    exact handle_of_not_id hroute hstops hquery hacks hitem

/-- A request with a token, on a channel, whose body comes in two parts. -/
def inTwoParts (path first second : String) : Request where
  method := "POST"
  path
  query := none
  headers := [("Authorization", Text.Utf8.encode "Splunk t"),
    ("X-Splunk-Request-Channel", Text.Utf8.encode "c"),
    ("Transfer-Encoding", Text.Utf8.encode "chunked")]
  body := ⟨[Text.Utf8.encode first, Text.Utf8.encode second], .whole⟩

/-- A server with one sender and an id that waits. -/
def oneWaiting : Server Delivery.Memory where
  service := { oneSender with registry := (Ack.Operation.runAll [.registerAck "t" "c" 0] {}).2 }
  maxBody := 100

theorem unchanged_of_rejected_inTwoParts :
    let batch := inTwoParts "/services/collector" "\x7b\"event\":\"e\"\x7d\x7b" "\"event\":\"\"\x7d"
    let query := inTwoParts "/services/collector/ack" "\x7b\"acks\":[0," "\"1\"]\x7d"
    (∃ n, Event.SpoiledAfter n batch.body.parts.flatten) ∧
      (∃ response, handle 2 0 batch oneWaiting = some (response, oneWaiting) ∧
        response.status ∈ rejections) ∧
      ∃ response, handle 2 0 query oneWaiting = some (response, oneWaiting) ∧
        response.status ∈ rejections := by
  intro batch query
  have hspoiled : ∃ n, Event.SpoiledAfter n batch.body.parts.flatten := by
    apply Event.spoiledAfter_of_readAll 0
    have herror : (Event.readAll 0 batch.body.parts.flatten).isOk = false := by decide +kernel
    cases hread : Event.readAll 0 batch.body.parts.flatten with
    | error f => exact ⟨f, rfl⟩
    | ok es => rw [hread] at herror; cases herror
  have hasks : ((readQuery query.body.parts.flatten).toOption.bind (Json.get? "acks")).any (fun v =>
      v.array?.any fun items => items.any fun v => v.int64?.isNone) = true := by decide +kernel
  have hitem : ∃ v items, readQuery query.body.parts.flatten = .ok v ∧
      v.get? "acks" = some (.array items) ∧ ∃ w ∈ items, w.int64? = none := by
    cases hread : readQuery query.body.parts.flatten with
    | error f => rw [hread] at hasks; cases hasks
    | ok v =>
      rw [hread] at hasks
      obtain ⟨w, hw, hitems⟩ := (Option.any_eq_true ..).1 hasks
      cases w with
      | array items =>
        obtain ⟨u, hu, hnone⟩ := List.any_eq_true.1 hitems
        exact ⟨v, items, rfl, hw, u, hu, Option.isNone_iff_eq_none.1 hnone⟩
      | _ => cases hitems
  obtain ⟨n, hn⟩ := hspoiled
  obtain ⟨v, items, hread, hacks, hnone⟩ := hitem
  obtain ⟨-, hbatch, -⟩ := unchanged_of_rejected 2 0 batch oneWaiting
  obtain ⟨-, -, hasked⟩ := unchanged_of_rejected 2 0 query oneWaiting
  refine ⟨⟨n, hn⟩, hbatch nofun (by decide) n hn, ?_⟩
  exact hasked nofun (by decide) v items hread hacks hnone

end Server

end Http

end EventRelay
