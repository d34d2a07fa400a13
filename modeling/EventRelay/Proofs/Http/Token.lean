import EventRelay.Proofs.Http.Framing
import Mathlib.Data.List.TakeWhile

/-!
# The token of a request

Blanks are cut from the value of a header three times before it becomes a token: around the value
as it is received, around what is left when the scheme is taken off, and once more by the service.
Of a scheme, some spaces and a token nothing but the token is left, and a value without the scheme
is the token as it stands (`handle_of_authorization`).

A scheme without a token is no exception to that. The blanks behind it are cut before it is looked
for, so the space that would end it is missing, and the word itself is taken for a token
(`scheme_alone_not_refused`).
-/

namespace EventRelay.Http

open Text

/-! ## Cutting at both ends -/

section Trimmed

variable {α : Type} {p : α → Bool} {l : List α}

/-- Nothing at either end of a list has the property. -/
structure Trimmed (p : α → Bool) (l : List α) : Prop where
  head : ∀ a ∈ l.head?, p a = false
  last : ∀ a ∈ l.getLast?, p a = false

theorem dropWhile_of_head (h : ∀ a ∈ l.head?, p a = false) : l.dropWhile p = l := by
  cases l with
  | nil => rfl
  | cons a l => exact List.dropWhile_cons_of_neg (by rw [h a rfl]; decide)

/-- What is cut at both ends of a list leaves the part of it that nothing can be cut of. -/
theorem Trimmed.cut (h : Trimmed p l) (front behind : List α) (hfront : ∀ a ∈ front, p a = true)
    (hbehind : ∀ a ∈ behind, p a = true) :
    (((front ++ l ++ behind).dropWhile p).reverse.dropWhile p).reverse = l := by
  have hlast : l.reverse.dropWhile p = l.reverse :=
    dropWhile_of_head (by rw [List.head?_reverse]; exact h.last)
  have hend : (behind.reverse ++ l.reverse).dropWhile p = l.reverse := by
    rw [List.dropWhile_append_of_pos fun a ha => hbehind a (List.mem_reverse.1 ha), hlast]
  rw [List.append_assoc, List.dropWhile_append_of_pos hfront]
  cases l with
  | nil =>
    have hnone : behind.dropWhile p = [] := List.dropWhile_eq_nil_iff.2 hbehind
    rw [List.nil_append, hnone]
    rfl
  | cons a l =>
    have hstart : ((a :: l) ++ behind).dropWhile p = (a :: l) ++ behind := dropWhile_of_head h.head
    rw [hstart, List.reverse_append, hend, List.reverse_reverse]

/-- Nothing is left to cut. -/
theorem trimmed_cut (p : α → Bool) (l : List α) :
    Trimmed p ((l.dropWhile p).reverse.dropWhile p).reverse := by
  have hhead (l : List α) : ∀ a ∈ (l.dropWhile p).head?, p a = false := by
    intro a ha
    have hnot := List.head?_dropWhile_not p l
    rw [ha] at hnot
    exact hnot
  constructor
  · intro a ha
    obtain ⟨behind, hbehind⟩ :
        ((l.dropWhile p).reverse.dropWhile p).reverse <+: l.dropWhile p := by
      have hsuffix := List.dropWhile_suffix (l := (l.dropWhile p).reverse) p
      rwa [← List.reverse_prefix, List.reverse_reverse] at hsuffix
    apply hhead l a
    rw [← hbehind, List.head?_append, Option.mem_def.1 ha]
    rfl
  · rw [List.getLast?_reverse]
    exact hhead _

theorem trimmed_map_iff {β : Type} {f : β → α} {q : β → Bool} {l : List β}
    (hf : ∀ b ∈ l, p (f b) = q b) : Trimmed p (l.map f) ↔ Trimmed q l := by
  have hhead : (∀ a ∈ (l.map f).head?, p a = false) ↔ ∀ b ∈ l.head?, q b = false := by
    rw [List.head?_map]
    cases h : l.head? with
    | none => simp
    | some b => simp [hf b (List.mem_of_head? h)]
  have hlast : (∀ a ∈ (l.map f).getLast?, p a = false) ↔ ∀ b ∈ l.getLast?, q b = false := by
    rw [List.getLast?_map]
    cases h : l.getLast? with
    | none => simp
    | some b => simp [hf b (List.mem_of_getLast? h)]
  exact ⟨fun h => ⟨hhead.1 h.head, hlast.1 h.last⟩, fun h => ⟨hhead.2 h.head, hlast.2 h.last⟩⟩

end Trimmed

/-! ## Values that are text -/

/-- Whether a character may stand in a value that is text. -/
def IsTextChar (c : Char) : Prop := 0x20 ≤ c.toNat ∧ c.toNat ≤ 0x7E ∨ c = '\t'

section Values

variable {v : List Char} {c : Char}

theorem IsTextChar.toNat_lt (h : IsTextChar c) : c.toNat < 128 := by
  rcases h with ⟨-, hle⟩ | rfl
  · omega
  · decide

theorem IsTextChar.isTextByte (h : IsTextChar c) : isTextByte (UInt8.ofNat c.toNat) = true := by
  have hbyte : (UInt8.ofNat c.toNat).toNat = c.toNat :=
    Utf8.toNat_ofNat_of_lt (Nat.lt_trans h.toNat_lt (by decide))
  rcases h with ⟨hle, hge⟩ | rfl
  · rw [Http.isTextByte, Bool.or_eq_true, Bool.and_eq_true, decide_eq_true_eq, decide_eq_true_eq,
      UInt8.le_iff_toNat_le, UInt8.le_iff_toNat_le, hbyte]
    exact .inl ⟨hle, hge⟩
  · decide

/-- In a value that is text, what pads it and what is blank are the same. -/
theorem IsTextChar.isPadding_eq (h : IsTextChar c) :
    isPadding (UInt8.ofNat c.toNat) = isBlank c := by
  have hchars : ∀ n < 0x7F, IsTextChar (Char.ofNat n) →
      isPadding (UInt8.ofNat n) = isBlank (Char.ofNat n) := by
    unfold IsTextChar
    decide
  have hlt : c.toNat < 0x7F := by
    rcases h with ⟨-, hle⟩ | rfl
    · omega
    · decide
  have hc := hchars c.toNat hlt
  rw [Char.ofNat_toNat] at hc
  exact hc h

theorem encode_text (h : ∀ c ∈ v, IsTextChar c) :
    Utf8.encode (String.ofList v) = v.map fun c => UInt8.ofNat c.toNat :=
  Utf8.encode_ofList_ascii fun c hc => (h c hc).toNat_lt

theorem valueText?_encode (h : ∀ c ∈ v, IsTextChar c) :
    valueText? (Utf8.encode (String.ofList v)) = some (String.ofList v) := by
  have hall : (Utf8.encode (String.ofList v)).all isTextByte = true := by
    rw [encode_text h, List.all_eq_true]
    intro b hb
    obtain ⟨c, hc, rfl⟩ := List.mem_map.1 hb
    exact (h c hc).isTextByte
  rw [valueText?, if_pos hall, Utf8.decode?_encode]

theorem trimmed_encode_iff (h : ∀ c ∈ v, IsTextChar c) :
    Trimmed isPadding (Utf8.encode (String.ofList v)) ↔ Trimmed isBlank v := by
  rw [encode_text h]
  exact trimmed_map_iff fun c hc => (h c hc).isPadding_eq

/-- Spaces behind a value are no part of it. -/
theorem unpad_encode (h : ∀ c ∈ v, IsTextChar c) (hv : Trimmed isBlank v) (k : ℕ) :
    unpad (Utf8.encode (String.ofList (v ++ List.replicate k ' '))) =
      Utf8.encode (String.ofList v) := by
  have hspaces : ∀ b ∈ List.replicate k (0x20 : UInt8), isPadding b = true := by
    intro b hb
    rw [List.eq_of_mem_replicate hb]
    rfl
  have hencode : Utf8.encode (String.ofList (v ++ List.replicate k ' ')) =
      [] ++ Utf8.encode (String.ofList v) ++ List.replicate k 0x20 := by
    rw [encode_text, encode_text h, List.map_append, List.map_replicate, List.nil_append]
    · rfl
    · intro c hc
      rcases List.mem_append.1 hc with hc | hc
      · exact h c hc
      · rw [List.eq_of_mem_replicate hc]
        exact .inl (by decide)
  rw [unpad, hencode, ((trimmed_encode_iff h).2 hv).cut [] _ (List.forall_mem_nil _) hspaces]

theorem trim_of_trimmed (hv : Trimmed isBlank v) (front : List Char)
    (hfront : ∀ c ∈ front, isBlank c = true) :
    trim (String.ofList (front ++ v)) = String.ofList v := by
  have hcut := hv.cut front [] hfront (List.forall_mem_nil _)
  rw [List.append_nil] at hcut
  rw [trim, trimStart, trimEnd, String.toList_ofList, hcut]

/-- A text that begins with the scheme, in any letter case, and a space. -/
def BeginsWithScheme (v : List Char) : Prop :=
  (v.take Headers.scheme.length).map asciiLowerChar = Headers.scheme

/-- A trimmed value without the scheme is the token as it stands. -/
theorem tokenOf_of_not_scheme (hv : Trimmed isBlank v) (hscheme : ¬ BeginsWithScheme v) :
    Headers.tokenOf (String.ofList v) = String.ofList v := by
  have hstart : trimStart v = v := dropWhile_of_head hv.head
  have htrim := trim_of_trimmed hv [] (List.forall_mem_nil _)
  unfold BeginsWithScheme at hscheme
  rw [Headers.tokenOf, String.toList_ofList, hstart, Headers.dropScheme, if_neg hscheme]
  exact htrim

end Values

/-! ## The scheme -/

/-- All characters lie in a range, as a test that can be run. -/
theorem forall_of_all {l : List Char} {low high : ℕ}
    (h : (l.all fun c => decide (low ≤ c.toNat ∧ c.toNat ≤ high)) = true) :
    ∀ c ∈ l, low ≤ c.toNat ∧ c.toNat ≤ high :=
  fun c hc => of_decide_eq_true (List.all_eq_true.1 h c hc)

/-- The scheme's word, in some letter case. -/
def IsScheme (scheme : List Char) : Prop := scheme.map asciiLowerChar = "splunk".toList

/-- A token of printable characters that neither begins nor ends with a space. -/
structure IsToken (token : List Char) : Prop where
  ne_nil : token ≠ []
  printable : ∀ c ∈ token, 0x20 ≤ c.toNat ∧ c.toNat ≤ 0x7E
  head : token.head? ≠ some ' '
  last : token.getLast? ≠ some ' '

section Scheme

variable {scheme token : List Char} {k : ℕ}

theorem IsScheme.length_eq (h : IsScheme scheme) : scheme.length = 6 := by
  have hlength := congrArg List.length h
  rwa [List.length_map] at hlength

theorem IsScheme.letter (h : IsScheme scheme) {c : Char} (hc : c ∈ scheme) :
    0x41 ≤ c.toNat ∧ c.toNat ≤ 0x7A := by
  have hlower : asciiLowerChar c ∈ "splunk".toList := by
    rw [← h]
    exact List.mem_map_of_mem hc
  have hrange : ∀ d ∈ "splunk".toList, 0x61 ≤ d.toNat ∧ d.toNat ≤ 0x7A := forall_of_all (by decide)
  unfold asciiLowerChar at hlower
  split at hlower
  · next hupper =>
    have hlow : 0x41 ≤ c.toNat := hupper.1
    have hhigh : c.toNat ≤ 0x5A := hupper.2
    omega
  · have hletter := hrange c hlower
    omega

theorem isBlank_of_printable {c : Char} (h : 0x20 ≤ c.toNat ∧ c.toNat ≤ 0x7E) (hne : c ≠ ' ') :
    isBlank c = false := by
  have hchars : ∀ n < 0x7F, 0x20 ≤ n → Char.ofNat n ≠ ' ' → isBlank (Char.ofNat n) = false := by
    decide
  have hc := hchars c.toNat (by omega) h.1
  rw [Char.ofNat_toNat] at hc
  exact hc hne

theorem IsScheme.isBlank_eq_false (h : IsScheme scheme) {c : Char} (hc : c ∈ scheme) :
    isBlank c = false := by
  have hletter := h.letter hc
  refine isBlank_of_printable (by omega) ?_
  rintro rfl
  exact absurd hletter.1 (by decide)

theorem IsScheme.trimmed (h : IsScheme scheme) : Trimmed isBlank scheme :=
  ⟨fun _ hc => h.isBlank_eq_false (List.mem_of_head? hc),
    fun _ hc => h.isBlank_eq_false (List.mem_of_getLast? hc)⟩

theorem IsScheme.isTextChar (h : IsScheme scheme) : ∀ c ∈ scheme, IsTextChar c := by
  intro c hc
  have hletter := h.letter hc
  exact .inl (by omega)

theorem IsToken.trimmed (h : IsToken token) : Trimmed isBlank token := by
  constructor
  · intro c hc
    refine isBlank_of_printable (h.printable c (List.mem_of_head? hc)) ?_
    rintro rfl
    exact h.head hc
  · intro c hc
    refine isBlank_of_printable (h.printable c (List.mem_of_getLast? hc)) ?_
    rintro rfl
    exact h.last hc

/-- The service takes a token as it is. -/
theorem IsToken.nonBlank? (h : IsToken token) :
    nonBlank? (String.ofList token) = some (String.ofList token) := by
  have htrim := trim_of_trimmed h.trimmed [] (List.forall_mem_nil _)
  rw [List.nil_append] at htrim
  have hne : ¬ (String.ofList token).isEmpty = true := by
    rw [String.isEmpty_iff]
    intro hempty
    apply h.ne_nil
    rw [← String.toList_ofList (l := token), hempty]
    rfl
  rw [Text.nonBlank?, htrim]
  exact if_neg hne

theorem isTextChar_of_mem_spaces : ∀ c ∈ List.replicate k ' ', IsTextChar c := by
  intro c hc
  rw [List.eq_of_mem_replicate hc]
  exact .inl (by decide)

/-- A value with the scheme and a token cannot be cut at either end. -/
theorem trimmed_of_scheme (hs : IsScheme scheme) (ht : IsToken token) :
    Trimmed isBlank (scheme ++ (List.replicate k ' ' ++ token)) := by
  constructor
  · intro c hc
    have hne : scheme ≠ [] := by
      rintro rfl
      cases hs.length_eq
    obtain ⟨a, l, rfl⟩ := List.exists_cons_of_ne_nil hne
    cases hc
    exact hs.isBlank_eq_false List.mem_cons_self
  · rw [← List.append_assoc, List.getLast?_append_of_ne_nil _ ht.ne_nil]
    exact ht.trimmed.last

/-- Behind the scheme and some spaces stands the token. -/
theorem tokenOf_of_scheme (hs : IsScheme scheme) (hk : 0 < k) (ht : IsToken token) :
    Headers.tokenOf (String.ofList (scheme ++ (List.replicate k ' ' ++ token))) =
      String.ofList token := by
  obtain ⟨j, rfl⟩ := Nat.exists_eq_succ_of_ne_zero hk.ne'
  have hstart := dropWhile_of_head (trimmed_of_scheme (k := j + 1) hs ht).head
  have hvalue : scheme ++ (List.replicate (j + 1) ' ' ++ token) =
      (scheme ++ [' ']) ++ (List.replicate j ' ' ++ token) := by
    rw [List.replicate_succ, List.append_assoc]
    rfl
  have hlength : Headers.scheme.length = (scheme ++ [' ']).length := by
    rw [List.length_append, hs.length_eq]
    rfl
  have hmatches : (scheme ++ [' ']).map asciiLowerChar = Headers.scheme := by
    rw [List.map_append, hs]
    decide
  have hblank : ∀ c ∈ List.replicate j ' ', isBlank c = true := by
    intro c hc
    rw [List.eq_of_mem_replicate hc]
    decide
  rw [Headers.tokenOf, String.toList_ofList, trimStart, hstart, hvalue, Headers.dropScheme, hlength,
    List.take_left, List.drop_left, if_pos hmatches, trim_of_trimmed ht.trimmed _ hblank]

theorem not_beginsWithScheme (hs : IsScheme scheme) : ¬ BeginsWithScheme scheme := by
  intro hbegins
  have hlength := congrArg List.length hbegins
  rw [List.length_map, List.length_take, hs.length_eq] at hlength
  cases hlength

end Scheme

/-! ## Requests -/

/-- The message has one header of that name. -/
def Message.Single (m : Message) (name : String) (value : Bytes) : Prop :=
  ∃ n, (m.headers.filter fun h => asciiLower h.1 = asciiLower name) = [(n, value)]

theorem Message.Single.get?_receive {m : Message} {name : String} {value : Bytes}
    (h : m.Single name value)
    (hname : asciiLower name ≠ "content-length" ∧ asciiLower name ≠ "transfer-encoding") :
    m.receive.headers.get? name = some (unpad value) := by
  obtain ⟨n, hfilter⟩ := h
  have hfind := congrArg List.head? hfilter
  rw [List.head?_filter] at hfind
  have hvalue : m.ownHeaders.get? name = some (unpad value) := by
    rw [ownHeaders, Headers.get?, List.find?_map, Option.map_map]
    change (m.headers.find? fun h => decide (asciiLower h.1 = asciiLower name)).map _ = _
    rw [hfind]
    rfl
  exact (get?_framedBy m m.framing hname).trans hvalue

namespace Server

variable {σ : Type}

/-- The response to what the service made of a request. -/
def respond {α : Type} (toJson : α → Json) (s : Server σ)
    (x : Except Service.Fault α × Service σ) : Response × Server σ :=
  match x.1 with
  | .ok a => (.json 200 (toJson a), { s with service := x.2 })
  | .error f => (.ofFault f, { s with service := x.2 })

theorem answerQuery_eq (r : Request) (body : Bytes) (s : Server σ) :
    answerQuery r body s =
      respond Service.statusesJson s (s.service.getAcks (caller r) body) := by
  unfold answerQuery respond
  dsimp only
  cases (s.service.getAcks (caller r) body).1 <;> rfl

variable [Delivery.Transport σ] {rounds : Nat} {now : Int} {route : Route}

/-- What comes of what was read of a body, for a caller. -/
def serve (rounds : Nat) (now : Int) (route : Route) (caller : Service.Caller)
    (origin : Syslog.Origin) (s : Server σ) :
    Option (Except Response Bytes) → Option (Response × Server σ)
  | none => none
  | some (.error response) => some (response, s)
  | some (.ok body) =>
    match route with
    | .events =>
      (s.service.sendEvents rounds now caller body origin).map (respond Service.Receipt.toJson s)
    | .acks => some (respond Service.statusesJson s (s.service.getAcks caller body))
    | .health => some (.message 200 17 "HEC is healthy", s)

theorem takeEvents_eq (r : Request) (body : Bytes) (s : Server σ) :
    takeEvents rounds now r body s =
      (s.service.sendEvents rounds now (caller r) body r.headers.origin).map
        (respond Service.Receipt.toJson s) := by
  unfold takeEvents respond
  congr 1
  funext x
  cases x.1 <;> rfl

theorem handle_eq_serve {r : Request} {s : Server σ}
    (hroute : Route.of? r.method r.path = some route) (hbody : route ≠ .health) :
    handle rounds now r s =
      serve rounds now route (caller r) r.headers.origin s (readBody s.maxBody route r) := by
  unfold handle
  rw [hroute]
  cases route with
  | events =>
    dsimp only
    cases readBody s.maxBody .events r with
    | none => rfl
    | some x =>
      cases x with
      | error response => rfl
      | ok body => exact takeEvents_eq r body s
  | acks =>
    dsimp only
    cases readBody s.maxBody .acks r with
    | none => rfl
    | some x =>
      cases x with
      | error response => rfl
      | ok body => exact congrArg some (answerQuery_eq r body s)
  | health => exact absurd rfl hbody

/-- Without a token nothing is done. -/
theorem serve_of_no_token {caller : Service.Caller} {origin : Syslog.Origin} {s : Server σ}
    {body : Bytes} (htoken : caller.token.bind Text.nonBlank? = none) (hbody : route ≠ .health) :
    serve rounds now route caller origin s (some (.ok body)) =
      some (.ofFault .tokenMissing, s) := by
  cases route with
  | events => simp only [serve, Service.sendEvents, Service.readEvents, htoken, respond,
      Option.map_some]
  | acks => simp only [serve, Service.getAcks, htoken, respond]
  | health => exact absurd rfl hbody

/-- Serves a request as if its headers named this token, or none. -/
def serveAs (rounds : Nat) (now : Int) (route : Route) (token : Option String) (r : Request)
    (s : Server σ) : Option (Response × Server σ) :=
  serve rounds now route { caller r with token } r.headers.origin s (readBody s.maxBody route r)

theorem handle_of_value {m : Message} {value : Bytes} {s : Server σ}
    (hroute : Route.of? m.method (splitTarget m.target).1 = some route) (hbody : route ≠ .health)
    (hvalue : m.Single "authorization" value) :
    handle rounds now m.receive s =
      serveAs rounds now route ((valueText? (unpad value)).map Headers.tokenOf) m.receive s := by
  have htoken : m.receive.headers.token? = (valueText? (unpad value)).map Headers.tokenOf := by
    rw [Headers.token?, Headers.text?, hvalue.get?_receive (by decide), Option.bind_some]
  rw [serveAs, ← htoken]
  exact handle_eq_serve hroute hbody

/-- A single header names the token. Behind the scheme, in any letter case, and one or more spaces
it is what is left, and the service takes it as it is; the scheme's word alone, and any other value
that does not begin with the scheme and a space, is the token as a whole. With a value that is blank
or no text, nothing is done. -/
theorem handle_of_authorization {m : Message} {value : Bytes}
    (hroute : Route.of? m.method (splitTarget m.target).1 = some route) (hbody : route ≠ .health)
    (hvalue : m.Single "authorization" value) (rounds : Nat) (now : Int) (s : Server σ) :
    (∀ scheme k token, IsScheme scheme → 0 < k → IsToken token →
      value = Utf8.encode (String.ofList (scheme ++ (List.replicate k ' ' ++ token))) →
      Text.nonBlank? (String.ofList token) = some (String.ofList token) ∧
        handle rounds now m.receive s =
          serveAs rounds now route (some (String.ofList token)) m.receive s) ∧
    (∀ scheme k, IsScheme scheme →
      value = Utf8.encode (String.ofList (scheme ++ List.replicate k ' ')) →
      handle rounds now m.receive s =
        serveAs rounds now route (some (String.ofList scheme)) m.receive s) ∧
    (∀ v, (∀ c ∈ v, IsTextChar c) → unpad value = Utf8.encode (String.ofList v) →
      ¬ BeginsWithScheme v →
      handle rounds now m.receive s =
        serveAs rounds now route (some (String.ofList v)) m.receive s) ∧
    (∀ body, readBody s.maxBody route m.receive = some (.ok body) →
      unpad value = [] ∨ valueText? (unpad value) = none →
      handle rounds now m.receive s = some (.ofFault .tokenMissing, s)) := by
  have htoken {v : List Char} {token : String} (hv : ∀ c ∈ v, IsTextChar c)
      (hbytes : unpad value = Utf8.encode (String.ofList v))
      (hread : Headers.tokenOf (String.ofList v) = token) :
      handle rounds now m.receive s = serveAs rounds now route (some token) m.receive s := by
    rw [handle_of_value hroute hbody hvalue, hbytes, valueText?_encode hv, Option.map_some, hread]
  refine ⟨?_, ?_, ?_, ?_⟩
  · intro scheme k token hscheme hk ht hbytes
    have hchars : ∀ c ∈ scheme ++ (List.replicate k ' ' ++ token), IsTextChar c := by
      intro c hc
      simp only [List.mem_append] at hc
      rcases hc with hc | hc | hc
      · exact hscheme.isTextChar c hc
      · exact isTextChar_of_mem_spaces c hc
      · exact .inl (ht.printable c hc)
    have hunpad := unpad_encode hchars (trimmed_of_scheme hscheme ht) 0
    rw [List.replicate_zero, List.append_nil] at hunpad
    refine ⟨ht.nonBlank?, htoken hchars ?_ (tokenOf_of_scheme hscheme hk ht)⟩
    rw [hbytes, hunpad]
  · intro scheme k hscheme hbytes
    refine htoken hscheme.isTextChar ?_
      (tokenOf_of_not_scheme hscheme.trimmed (not_beginsWithScheme hscheme))
    rw [hbytes, unpad_encode hscheme.isTextChar hscheme.trimmed]
  · intro v hv hbytes hscheme
    have htrimmed : Trimmed isBlank v := by
      rw [← trimmed_encode_iff hv, ← hbytes]
      exact trimmed_cut isPadding value
    exact htoken hv hbytes (tokenOf_of_not_scheme htrimmed hscheme)
  · intro body hread hblank
    have hnone : ((valueText? (unpad value)).map Headers.tokenOf).bind Text.nonBlank? = none := by
      rcases hblank with hempty | hunread
      · rw [hempty]
        decide
      · rw [hunread]
        rfl
    rw [handle_of_value hroute hbody hvalue, serveAs, hread]
    exact serve_of_no_token hnone hbody

/-- An event from a client that says who it is in these words. -/
def authorized (words : String) : Message where
  method := "POST"
  target := "/services/collector/event"
  headers := [("authorization", Utf8.encode words), ("X-Splunk-Request-Channel", Utf8.encode "c")]
  framing := .sized 13
  body := Utf8.encode "\x7b\"event\":\"e\"\x7d"

theorem handle_of_authorization_oneEvent :
    Text.nonBlank? "t u" = some "t u" ∧
      handle 2 0 (authorized "sPLUNK  t u").receive (modest 13) =
        serveAs 2 0 .events (some "t u") (authorized "sPLUNK  t u").receive (modest 13) ∧
      handle 2 0 (authorized " ").receive (modest 13) =
        some (.ofFault .tokenMissing, modest 13) := by
  have hscheme : IsScheme "sPLUNK".toList := by
    unfold IsScheme
    decide
  have htoken : IsToken "t u".toList := ⟨by decide, forall_of_all (by decide), by decide, by decide⟩
  have hroute (words : String) : Route.of? (authorized words).method
      (splitTarget (authorized words).target).1 = some .events := by
    change Route.of? "POST" (splitTarget "/services/collector/event").1 = _
    decide
  obtain ⟨hnamed, -⟩ := handle_of_authorization (hroute "sPLUNK  t u") (by decide) ⟨_, rfl⟩ 2 0
    (modest 13)
  obtain ⟨-, -, -, hblank⟩ := handle_of_authorization (hroute " ") (by decide) ⟨_, rfl⟩ 2 0
    (modest 13)
  obtain ⟨hkept, hhandle⟩ := hnamed _ 2 _ hscheme (by decide) htoken (by decide)
  exact ⟨hkept, hhandle, hblank _ (by rfl) (.inl (by decide))⟩

/-- The scheme without a token is not refused. -/
theorem scheme_alone_not_refused :
    ¬ ∀ (m : Message) (scheme : List Char) (k : ℕ) (body : Bytes),
      Route.of? m.method (splitTarget m.target).1 = some .events →
      m.Single "authorization"
        (Utf8.encode (String.ofList (scheme ++ List.replicate k ' '))) →
      IsScheme scheme → 0 < k →
      readBody (modest 13).maxBody .events m.receive = some (.ok body) →
      handle 2 0 m.receive (modest 13) = some (.ofFault .tokenMissing, modest 13) := by
  intro hrefused
  have hscheme : IsScheme "Splunk".toList := by
    unfold IsScheme
    decide
  have hclaimed := hrefused (authorized "Splunk  ") _ 2 _ (by decide) ⟨_, rfl⟩ hscheme (by decide)
    (by rfl)
  have hstatus : (handle 2 0 (authorized "Splunk  ").receive (modest 13)).map
      (fun x => x.1.status) = some 200 := by decide +kernel
  rw [hclaimed] at hstatus
  exact absurd hstatus (by decide)

end Server

end EventRelay.Http
