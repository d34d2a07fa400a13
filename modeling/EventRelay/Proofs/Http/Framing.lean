import EventRelay.Http.Server
import EventRelay.Proofs.Service.Honesty
import EventRelay.Proofs.Text.Utf8

/-!
# Framing does not matter

A client may say the length of a body in a header or send the body in parts, and the limit on bodies
is kept in two places: a length is compared before anything is read (`refusal?_sized`), parts are
counted as they come (`read_of_whole`). Both take the same bodies for too large, and a body that is
not too large arrives as it was sent, however it was cut. Nothing else that the server reads off a
request depends on its framing (`caller_receive`, `origin_receive`), so both ways lead to the same
answer and the same effects (`handle_chunked_eq_sized`).
-/

namespace EventRelay.Http

open Text

/-! ## Looking up headers -/

namespace Headers

variable {h : Headers} {n name : String} {value : Bytes}

theorem get?_append_of_ne (h : Headers) (value : Bytes) (hne : asciiLower n ≠ asciiLower name) :
    get? name (h ++ [(n, value)]) = get? name h := by
  have hlast : [(n, value)].find? (fun e => decide (asciiLower e.1 = asciiLower name)) = none := by
    rw [List.find?_cons_of_neg (by simpa using hne), List.find?_nil]
  rw [get?, get?, List.find?_append, hlast, Option.or_none]

theorem get?_append_self (hnone : get? name h = none) (heq : asciiLower n = asciiLower name) :
    get? name (h ++ [(n, value)]) = some value := by
  rw [get?, Option.map_eq_none_iff] at hnone
  rw [get?, List.find?_append, hnone, Option.none_or, List.find?_cons_of_pos (by simpa using heq)]
  rfl

theorem get?_eq_none (hno : ∀ e ∈ h, asciiLower e.1 ≠ asciiLower name) : get? name h = none := by
  rw [get?, Option.map_eq_none_iff, List.find?_eq_none]
  intro e he
  simpa using hno e he

end Headers

/-! ## A length in a header -/

theorem unpad_encode_repr (n : Nat) : unpad (Utf8.encode n.repr) = Utf8.encode n.repr := by
  have hkeep : ∀ l : Bytes, (∀ b ∈ l, b ∈ Utf8.encode n.repr) → l.dropWhile isPadding = l := by
    intro l hl
    cases l with
    | nil => rfl
    | cons b l =>
      have hdigit := Utf8.toNat_of_mem_encode_repr (hl b List.mem_cons_self)
      have hpadding : ¬ isPadding b = true := by
        simp only [isPadding, Bool.or_eq_true, decide_eq_true_eq]
        rintro (rfl | rfl)
        · exact absurd hdigit.1 (by decide)
        · exact absurd hdigit.1 (by decide)
      rw [List.dropWhile_cons_of_neg hpadding]
  rw [unpad, hkeep _ (fun b hb => hb), hkeep _ (fun b hb => List.mem_reverse.1 hb),
    List.reverse_reverse]

theorem valueText?_encode_repr (n : Nat) : valueText? (Utf8.encode n.repr) = some n.repr := by
  have htext : (Utf8.encode n.repr).all isTextByte = true := by
    refine List.all_eq_true.2 ?_
    intro b hb
    obtain ⟨hlow, hhigh⟩ := Utf8.toNat_of_mem_encode_repr hb
    simp only [isTextByte, Bool.or_eq_true, Bool.and_eq_true, decide_eq_true_eq,
      UInt8.le_iff_toNat_le]
    refine .inl ⟨Nat.le_trans (by decide) hlow, Nat.le_trans hhigh (by decide)⟩
  rw [valueText?, if_pos htext, Utf8.decode?_encode]

/-- The limit, kept by a length in a header. -/
theorem refusal?_of_length {h : Headers} {n : Nat} (limit : Nat) (task : String)
    (hn : n < Numeral.wordSize 64) (hlength : h.get? "content-length" = some (Utf8.encode n.repr)) :
    h.refusal? limit task = if limit < n then some (tooLarge task) else none := by
  have hread : (valueText? (Utf8.encode n.repr)).bind (Numeral.below? (Numeral.wordSize 64)) =
      some n := by
    rw [valueText?_encode_repr, Option.bind_some, Numeral.below?, Numeral.unsigned?_repr]
    simp [hn]
  rw [Headers.refusal?, hlength]
  simp only [hread]

theorem refusal?_of_parts {h : Headers} {value : Bytes} (limit : Nat) (task : String)
    (hlength : h.get? "content-length" = none) (hparts : h.get? "transfer-encoding" = some value) :
    h.refusal? limit task = none := by
  rw [Headers.refusal?, hlength, hparts]
  rfl

/-! ## Parts -/

/-- The limit, kept by counting what comes. -/
theorem read_of_whole (limit : Nat) (parts : List Bytes) :
    Incoming.read limit ⟨parts, .whole⟩ =
      some (if parts.flatten.length ≤ limit then .ok parts.flatten else .error .tooLarge) := by
  have hcollect : ∀ n ≤ limit, collect limit .whole n parts =
      some (if n + parts.flatten.length ≤ limit then .ok parts.flatten else .error .tooLarge) := by
    induction parts with
    | nil =>
      intro n hn
      simp [collect, hn]
    | cons part parts ih =>
      intro n hn
      rw [collect, List.flatten_cons, List.length_append]
      by_cases hpart : limit < n + part.length
      · rw [if_pos hpart, if_neg (by omega)]
      · rw [if_neg hpart, ih (n + part.length) (by omega), Nat.add_assoc]
        by_cases htotal : n + (part.length + parts.flatten.length) ≤ limit
        · simp only [if_pos htotal]
          rfl
        · simp only [if_neg htotal]
          rfl
  rw [Incoming.read, hcollect 0 (Nat.zero_le limit), Nat.zero_add]

theorem cutParts_map_length (parts : List Bytes) :
    cutParts (parts.map List.length) parts.flatten = parts := by
  induction parts with
  | nil => rfl
  | cons part parts ih =>
    rw [List.map_cons, List.flatten_cons, cutParts, List.take_left, List.drop_left, ih]

/-! ## One message in several framings -/

namespace Message

def framedBy (m : Message) (f : Framing) : Message := { m with framing := f }

/-- The headers that the client gives itself, as they are received. -/
def ownHeaders (m : Message) : Headers := m.headers.map fun h => (h.1, unpad h.2)

/-- No header of the client's own says how the body is framed. -/
def LeavesFraming (m : Message) : Prop :=
  ∀ h ∈ m.headers, asciiLower h.1 ≠ "content-length" ∧ asciiLower h.1 ≠ "transfer-encoding"

variable {m : Message}

theorem headers_sized (m : Message) (n : Nat) :
    (m.framedBy (.sized n)).receive.headers =
      m.ownHeaders ++ [("Content-Length", Utf8.encode n.repr)] := by
  simp only [receive, framedBy, ownHeaders, Framing.headers, List.map_append, List.map_cons,
    List.map_nil, unpad_encode_repr]

theorem headers_chunked (m : Message) (sizes : List Nat) :
    (m.framedBy (.chunked sizes)).receive.headers =
      m.ownHeaders ++ [("Transfer-Encoding", unpad (Utf8.encode "chunked"))] := by
  simp only [receive, framedBy, ownHeaders, Framing.headers, List.map_append, List.map_cons,
    List.map_nil]

theorem asciiLower_contentLength : asciiLower "Content-Length" = "content-length" := by
  decide

theorem asciiLower_transferEncoding : asciiLower "Transfer-Encoding" = "transfer-encoding" := by
  decide

/-- Any other header reads the same in every framing. -/
theorem get?_framedBy {name : String} (m : Message) (f : Framing)
    (hname : asciiLower name ≠ "content-length" ∧ asciiLower name ≠ "transfer-encoding") :
    (m.framedBy f).receive.headers.get? name = m.ownHeaders.get? name := by
  cases f with
  | absent => simp only [receive, framedBy, ownHeaders, Framing.headers, List.append_nil]
  | sized n =>
    rw [headers_sized]
    apply Headers.get?_append_of_ne
    rw [asciiLower_contentLength]
    exact hname.1.symm
  | chunked sizes =>
    rw [headers_chunked]
    apply Headers.get?_append_of_ne
    rw [asciiLower_transferEncoding]
    exact hname.2.symm

theorem origin_framedBy (m : Message) (f : Framing) :
    (m.framedBy f).receive.headers.origin = m.ownHeaders.origin := by
  simp (disch := decide) only [Headers.origin, Headers.text?, get?_framedBy]

theorem caller_framedBy (m : Message) (f f' : Framing) :
    Server.caller (m.framedBy f).receive = Server.caller (m.framedBy f').receive := by
  simp (disch := decide) only [Server.caller, Headers.token?, Headers.channel?,
    Headers.text?, get?_framedBy]
  rfl

theorem get?_ownHeaders (h : m.LeavesFraming) :
    m.ownHeaders.get? "content-length" = none ∧ m.ownHeaders.get? "transfer-encoding" = none := by
  have hlength : asciiLower "content-length" = "content-length" := by decide
  have hparts : asciiLower "transfer-encoding" = "transfer-encoding" := by decide
  constructor
  · apply Headers.get?_eq_none
    intro e he
    obtain ⟨e', he', rfl⟩ := List.mem_map.1 he
    rw [hlength]
    exact (h e' he').1
  · apply Headers.get?_eq_none
    intro e he
    obtain ⟨e', he', rfl⟩ := List.mem_map.1 he
    rw [hparts]
    exact (h e' he').2

end Message

namespace Server

variable {m : Message} {limit : Nat} {route : Route}

theorem readBody_chunked (h : m.LeavesFraming) {parts : List Bytes}
    (hparts : parts.flatten = m.body) :
    readBody limit route (m.framedBy (.chunked (parts.map List.length))).receive =
      some (if m.body.length ≤ limit then .ok m.body else .error (bodyRefusal .tooLarge)) := by
  have hrefusal : (m.framedBy (.chunked (parts.map List.length))).receive.headers.refusal? limit
      (task route) = none := by
    rw [Message.headers_chunked]
    apply refusal?_of_parts
    · rw [Headers.get?_append_of_ne _ _ (by decide)]
      exact (Message.get?_ownHeaders h).1
    · exact Headers.get?_append_self (Message.get?_ownHeaders h).2 (by decide)
  have hbody : (m.framedBy (.chunked (parts.map List.length))).receive.body = ⟨parts, .whole⟩ := by
    simp only [Message.receive, Message.framedBy, Framing.incoming, ← hparts, cutParts_map_length]
  simp only [readBody, hrefusal, hbody, read_of_whole, hparts]
  by_cases hle : m.body.length ≤ limit
  · simp only [if_pos hle]
    rfl
  · simp only [if_neg hle]
    rfl

theorem readBody_sized (h : m.LeavesFraming) (hlength : m.body.length < Numeral.wordSize 64) :
    readBody limit route (m.framedBy (.sized m.body.length)).receive =
      some (if m.body.length ≤ limit then .ok m.body else .error (tooLarge (task route))) := by
  have hrefusal : (m.framedBy (.sized m.body.length)).receive.headers.refusal? limit (task route) =
      if limit < m.body.length then some (tooLarge (task route)) else none := by
    apply refusal?_of_length _ _ hlength
    rw [Message.headers_sized]
    exact Headers.get?_append_self (Message.get?_ownHeaders h).1 (by decide)
  have hbody : (m.framedBy (.sized m.body.length)).receive.body = ⟨[m.body], .whole⟩ := by
    simp only [Message.receive, Message.framedBy, Framing.incoming, Nat.le_refl, if_true,
      List.take_length]
  simp only [readBody, hrefusal, hbody]
  by_cases hle : m.body.length ≤ limit
  · simp only [if_neg (Nat.not_lt.2 hle), read_of_whole, List.flatten_singleton, if_pos hle]
    rfl
  · simp only [if_pos (Nat.lt_of_not_le hle), if_neg hle]

/-! ## Serving -/

section Serving

variable {σ : Type} [Delivery.Transport σ] {rounds : Nat} {now : Int} {r r' : Request}
  {s : Server σ}

/-- All that matters of a request is where it goes, who sends it and what is read of its body. -/
theorem handle_congr (hroute : Route.of? r.method r.path = Route.of? r'.method r'.path)
    (hcaller : caller r = caller r') (horigin : r.headers.origin = r'.headers.origin)
    (hread : ∀ route, readBody s.maxBody route r = readBody s.maxBody route r') :
    handle rounds now r s = handle rounds now r' s := by
  simp only [handle, takeEvents, answerQuery, hroute, hcaller, horigin, hread]

theorem handle_of_refused {response : Response} (hroute : Route.of? r.method r.path = some route)
    (hbody : route ≠ .health) (hread : readBody s.maxBody route r = some (.error response)) :
    handle rounds now r s = some (response, s) := by
  unfold handle
  rw [hroute]
  cases route with
  | events => simp only [hread]
  | acks => simp only [hread]
  | health => exact absurd rfl hbody

/-- A body that is sent in parts, whatever they are, and one whose length is said in a header have
the same effects and the same answer, as long as the body is not too large; one that is too large
changes nothing, and either way the answer says so. A length in a header has 64 bits. -/
theorem handle_chunked_eq_sized (rounds : Nat) (now : Int) (s : Server σ) {parts : List Bytes}
    (hroute : Route.of? m.method (splitTarget m.target).1 = some .events ∨
      Route.of? m.method (splitTarget m.target).1 = some .acks)
    (hheaders : m.LeavesFraming) (hparts : parts.flatten = m.body)
    (hlength : m.body.length < Numeral.wordSize 64) :
    let chunked := (m.framedBy (.chunked (parts.map List.length))).receive
    let sized := (m.framedBy (.sized m.body.length)).receive
    (m.body.length ≤ s.maxBody → handle rounds now chunked s = handle rounds now sized s) ∧
      (s.maxBody < m.body.length → ∃ response response',
        handle rounds now chunked s = some (response, s) ∧
        handle rounds now sized s = some (response', s) ∧
        response.status = 413 ∧ response'.status = 413) := by
  intro chunked sized
  constructor
  · intro hle
    refine handle_congr ?_ (m.caller_framedBy _ _) ?_ ?_
    · rfl
    · rw [Message.origin_framedBy, Message.origin_framedBy]
    · intro route
      rw [readBody_chunked hheaders hparts, readBody_sized hheaders hlength, if_pos hle, if_pos hle]
  · intro hlt
    obtain ⟨route, hroute, hbody⟩ : ∃ route,
        Route.of? m.method (splitTarget m.target).1 = some route ∧ route ≠ .health := by
      rcases hroute with h | h
      · exact ⟨.events, h, by decide⟩
      · exact ⟨.acks, h, by decide⟩
    have hread : readBody s.maxBody route chunked = some (.error (bodyRefusal .tooLarge)) := by
      rw [readBody_chunked hheaders hparts, if_neg (Nat.not_le.2 hlt)]
    have hread' : readBody s.maxBody route sized = some (.error (Http.tooLarge (task route))) := by
      rw [readBody_sized hheaders hlength, if_neg (Nat.not_le.2 hlt)]
    exact ⟨_, _, handle_of_refused hroute hbody hread, handle_of_refused hroute hbody hread', rfl,
      rfl⟩

end Serving

/-- A server with one sender. -/
def modest (maxBody : Nat) : Server Delivery.Memory where
  service := Service.oneSender
  maxBody

/-- An event on a channel, and a body of thirteen bytes. -/
def oneEvent : Message where
  method := "POST"
  target := "/services/collector/event"
  headers := [("Authorization", Utf8.encode "Splunk t"),
    ("X-Splunk-Request-Channel", Utf8.encode "c")]
  framing := .absent
  body := Utf8.encode "\x7b\"event\":\"e\"\x7d"

theorem handle_chunked_eq_sized_oneEvent :
    let parts := [oneEvent.body.take 12, oneEvent.body.drop 12]
    let chunked := (oneEvent.framedBy (.chunked (parts.map List.length))).receive
    let sized := (oneEvent.framedBy (.sized oneEvent.body.length)).receive
    Route.of? oneEvent.method (splitTarget oneEvent.target).1 = some .events ∧
      oneEvent.LeavesFraming ∧ parts.flatten = oneEvent.body ∧ oneEvent.body.length = 13 ∧
      handle 2 0 chunked (modest 13) = handle 2 0 sized (modest 13) ∧
      (handle 2 0 sized (modest 13)).map (fun x => x.1.status) = some 200 ∧
      ∃ response response', handle 2 0 chunked (modest 12) = some (response, modest 12) ∧
        handle 2 0 sized (modest 12) = some (response', modest 12) ∧
        response.status = 413 ∧ response'.status = 413 := by
  intro parts chunked sized
  have hroute : Route.of? oneEvent.method (splitTarget oneEvent.target).1 = some .events := by
    decide
  have hheaders : oneEvent.LeavesFraming := by
    unfold Message.LeavesFraming
    decide
  have hparts : parts.flatten = oneEvent.body := by decide
  have hsize : oneEvent.body.length = 13 := by decide
  have hlength : oneEvent.body.length < Numeral.wordSize 64 := by
    rw [hsize]
    decide
  obtain ⟨hequal, -⟩ :=
    handle_chunked_eq_sized 2 0 (modest 13) (.inl hroute) hheaders hparts hlength
  obtain ⟨-, hlarge⟩ :=
    handle_chunked_eq_sized 2 0 (modest 12) (.inl hroute) hheaders hparts hlength
  refine ⟨hroute, hheaders, hparts, hsize, hequal (Nat.le_of_eq hsize), by decide +kernel, ?_⟩
  exact hlarge (Nat.lt_of_lt_of_eq (by decide) hsize.symm)

end Server

end EventRelay.Http
