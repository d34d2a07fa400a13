import EventRelay.Proofs.Delivery.Batch
import EventRelay.Proofs.Relp.Commit
import EventRelay.Proofs.Text.Utf8

/-!
# What comes of a commit

A commit that can write writes one command for each pending message under the next numbers
(`frames_eq_commands`), so a number in flight stands for one position only (`getElem?_inFlight`).
Then it hears frames until nothing is missing, the collector closes or reading fails, and the
batch is marked by the first answer to each number (`outcome_of_ready`), whatever else is among the
frames. Since only first answers count, their order and the frames between them do not
(`commit_outcome`).
-/

namespace EventRelay.Relp

/-! ## Answers that report success -/

section Status

open Text.Numeral

/-- Three digits at most write two hundred in one way. -/
theorem eq_of_digits? {l : List Char} (h : digits? l = some 200) (hlength : l.length ≤ 3) :
    l = ['2', '0', '0'] := by
  unfold digits? at h
  split at h
  · next hl =>
    have hvalue : Nat.ofDigitChars 10 l 0 = 200 := Option.some.inj h
    have hdigit : ∀ c ∈ l, 48 ≤ c.toNat ∧ c.toNat ≤ 57 := fun c hc =>
      Char.isDigit_iff_toNat.1 (List.all_eq_true.1 hl.2 c hc)
    match l, hlength with
    | [], _ => cases hvalue
    | [a], _ =>
      have ha := hdigit a (by simp)
      simp [Nat.ofDigitChars_cons] at hvalue
      omega
    | [a, b], _ =>
      have ha := hdigit a (by simp)
      have hb := hdigit b (by simp)
      simp [Nat.ofDigitChars_cons] at hvalue
      omega
    | [a, b, c], _ =>
      have ha := hdigit a (by simp)
      have hb := hdigit b (by simp)
      have hc := hdigit c (by simp)
      simp [Nat.ofDigitChars_cons] at hvalue
      obtain rfl : a = '2' := Char.toNat_inj.1 (by simp; omega)
      obtain rfl : b = '0' := Char.toNat_inj.1 (by simp; omega)
      obtain rfl : c = '0' := Char.toNat_inj.1 (by simp; omega)
      rfl
  · cases h

theorem ascii_of_digits? {l : List Char} {n : Nat} (h : digits? l = some n) :
    ∀ c ∈ l, c.toNat < 128 := by
  unfold digits? at h
  split at h
  · next hl =>
    intro c hc
    have hcode : c.toNat ≤ 57 := (Char.isDigit_iff_toNat.1 (List.all_eq_true.1 hl.2 c hc)).2
    omega
  · cases h

/-- A sign would take one of the three bytes, so no other text writes the status in them. -/
theorem eq_of_unsigned? {s : String} (h : unsigned? s.toList = some 200)
    (hlength : (Text.Utf8.encode s).length = 3) : s = "200" := by
  have hchars : ∀ {l : List Char}, s = String.ofList l → (∀ c ∈ l, c.toNat < 128) →
      l.length = 3 := by
    intro l hs hl
    rwa [hs, Text.Utf8.encode_ofList_ascii hl, List.length_map] at hlength
  unfold unsigned? at h
  split at h
  · next l hl =>
    have hs : s = String.ofList ('+' :: l) := by rw [← hl, String.ofList_toList]
    have hl3 := hchars hs (List.forall_mem_cons.2 ⟨by decide, ascii_of_digits? h⟩)
    rw [List.length_cons] at hl3
    obtain rfl := eq_of_digits? h (by omega)
    cases hl3
  · have hs : s = String.ofList s.toList := String.ofList_toList.symm
    have hl3 := hchars hs (ascii_of_digits? h)
    rw [hs, eq_of_digits? h (Nat.le_of_eq hl3)]

/-- An answer reports success exactly if its data begin with the three digits of the status. -/
theorem isSuccess_iff {f : Frame} : f.isSuccess = true ↔ Text.Utf8.encode "200" <+: f.data := by
  have hdigits : below? (wordSize 16) "200" = some 200 := by
    rw [below?, show "200" = Nat.repr 200 from rfl, unsigned?_repr]
    rfl
  have hlength : (Text.Utf8.encode "200").length = 3 := by decide
  rw [Frame.isSuccess, decide_eq_true_iff, Frame.status?, List.prefix_iff_eq_take, hlength]
  split
  · next hshort =>
    refine iff_of_false nofun fun heq => ?_
    have htake := congrArg List.length heq
    rw [hlength, List.length_take] at htake
    omega
  · next hlong =>
    rw [Option.bind_eq_some_iff]
    constructor
    · rintro ⟨s, hs, hvalue⟩
      rw [Text.Utf8.decode?_eq_some_iff] at hs
      rw [below?, Option.filter_eq_some_iff] at hvalue
      have htake : (Text.Utf8.encode s).length = 3 := by
        rw [← hs, List.length_take]
        omega
      rw [hs, eq_of_unsigned? hvalue.1 htake]
    · intro htake
      exact ⟨"200", Text.Utf8.decode?_eq_some_iff.2 htake.symm, hdigits⟩

end Status

/-! ## The commands of a commit -/

namespace Connection

/-- Messages as commands under consecutive numbers. -/
def commands (first : Nat) : List (Nat × Bytes) → List Frame
  | [] => []
  | e :: pending => ⟨first, "syslog", e.2⟩ :: commands (first + 1) pending

theorem getElem?_commands (first k : Nat) (pending : List (Nat × Bytes)) :
    (commands first pending)[k]? = pending[k]?.map fun e => ⟨first + k, "syslog", e.2⟩ := by
  induction pending generalizing first k with
  | nil => rfl
  | cons e pending ih =>
    cases k with
    | zero => rfl
    | succ k =>
      rw [commands, List.getElem?_cons_succ, List.getElem?_cons_succ, ih]
      rw [Nat.add_assoc, Nat.add_comm 1 k]

section Number

variable {ν : Type}

theorem takeTxnr_nextTxnr {c : Connection ν} (h : c.nextTxnr < maxTxnr) :
    c.takeTxnr.2.nextTxnr = c.nextTxnr + 1 := if_neg (Nat.not_le.2 h)

/-- While the numbers do not start again, they are consecutive. -/
theorem frames_eq_commands {pending : List (Nat × Bytes)} {c : Connection ν}
    (h : c.nextTxnr + pending.length ≤ maxTxnr + 1) :
    c.frames pending = commands c.nextTxnr pending := by
  unfold frames
  induction pending generalizing c with
  | nil => rfl
  | cons e pending ih =>
    rw [List.length_cons] at h
    simp only [number, commands]
    cases pending with
    | nil => rfl
    | cons e' pending =>
      have hnext : c.takeTxnr.2.nextTxnr = c.nextTxnr + 1 := by
        apply takeTxnr_nextTxnr
        rw [List.length_cons] at h
        omega
      rw [ih (by rw [hnext]; omega), hnext]
      rfl

theorem number_nextTxnr {pending : List (Nat × Bytes)} {c : Connection ν}
    (h : c.nextTxnr + pending.length ≤ maxTxnr) :
    (c.number pending).2.nextTxnr = c.nextTxnr + pending.length := by
  induction pending generalizing c with
  | nil => rfl
  | cons e pending ih =>
    rw [List.length_cons] at h ⊢
    have hnext : c.takeTxnr.2.nextTxnr = c.nextTxnr + 1 := takeTxnr_nextTxnr (by omega)
    have hrest := ih (c := c.takeTxnr.2) (by rw [hnext]; omega)
    simp only [number, hrest, hnext]
    omega

theorem mem_inFlight_of_mem_frames {pending : List (Nat × Bytes)} {c : Connection ν} {f : Frame}
    (h : f ∈ c.frames pending) : f.txnr ∈ (c.number pending).1.2 := by
  unfold frames at h
  induction pending generalizing c with
  | nil => cases h
  | cons e pending ih =>
    simp only [number, List.mem_cons] at h ⊢
    rw [Std.ExtTreeMap.mem_insertIfNew]
    rcases h with rfl | h
    · exact .inl (Nat.compare_eq_eq.2 rfl)
    · exact .inr (ih h)

theorem getElem?_inFlight {pending : List (Nat × Bytes)} {c : Connection ν}
    (h : c.nextTxnr + pending.length ≤ maxTxnr + 1) {x i : Nat} :
    (c.number pending).1.2[x]? = some i ↔
      ∃ (k : Nat) (m : Bytes), x = c.nextTxnr + k ∧ pending[k]? = some (i, m) := by
  have hplace : ∀ {x i : Nat}, (c.number pending).1.2[x]? = some i →
      ∃ (k : Nat) (m : Bytes), x = c.nextTxnr + k ∧ pending[k]? = some (i, m) := by
    intro x i hx
    obtain ⟨k, m, hk, hframe⟩ := exists_frame_of_inFlight hx
    rw [frames_eq_commands h, getElem?_commands, hk] at hframe
    cases hframe
    exact ⟨k, m, rfl, hk⟩
  refine ⟨hplace, ?_⟩
  rintro ⟨k, m, rfl, hk⟩
  have hframe : ⟨c.nextTxnr + k, "syslog", m⟩ ∈ c.frames pending := by
    apply List.mem_of_getElem? (i := k)
    rw [frames_eq_commands h, getElem?_commands, hk]
    rfl
  obtain ⟨j, hj⟩ := Option.isSome_iff_exists.1
    (Std.ExtTreeMap.mem_iff_isSome_getElem?.1 (mem_inFlight_of_mem_frames hframe))
  obtain ⟨k', m', hkk', hk'⟩ := hplace hj
  obtain rfl : k = k' := Nat.add_left_cancel hkk'
  rw [hk] at hk'
  cases hk'
  exact hj

theorem mem_inFlight {pending : List (Nat × Bytes)} {c : Connection ν}
    (h : c.nextTxnr + pending.length ≤ maxTxnr + 1) {x : Nat} :
    x ∈ (c.number pending).1.2 ↔ c.nextTxnr ≤ x ∧ x < c.nextTxnr + pending.length := by
  rw [Std.ExtTreeMap.mem_iff_isSome_getElem?, Option.isSome_iff_exists]
  simp only [getElem?_inFlight h]
  constructor
  · rintro ⟨i, k, m, rfl, hk⟩
    obtain ⟨hk, -⟩ := List.getElem?_eq_some_iff.1 hk
    omega
  · rintro ⟨hle, hlt⟩
    have hk : x - c.nextTxnr < pending.length := by omega
    exact ⟨pending[x - c.nextTxnr].1, x - c.nextTxnr, pending[x - c.nextTxnr].2, by omega,
      List.getElem?_eq_getElem hk⟩

end Number

end Connection

/-! ## What is marked -/

/-- The first answer to a number reports success. -/
def Accepted (heard : List Frame) (x : Nat) : Prop :=
  ∃ answer, heard.find? (Frame.answers x) = some answer ∧ Text.Utf8.encode "200" <+: answer.data

/-- How a batch is marked by the answers to its pending messages, which were sent under consecutive
numbers. -/
structure Marks (b b' : Delivery.Batch) (first : Nat) (heard : List Frame) : Prop where
  payloads : b'.entries.map Delivery.Entry.payload = b.entries.map Delivery.Entry.payload
  kept : ∀ (i : Nat) (m : Bytes), b.entries[i]? = some ⟨m, true⟩ → b'.entries[i]? = some ⟨m, true⟩
  decided : ∀ (k i : Nat) (m : Bytes), b.pending[k]? = some (i, m) →
    ∃ confirmed, b'.entries[i]? = some ⟨m, confirmed⟩ ∧
      (confirmed = true ↔ Accepted heard (first + k))

theorem marks_confirmAll {b : Delivery.Batch} {confirmed : List Nat} {first : Nat}
    {heard : List Frame}
    (h : ∀ i, i ∈ confirmed ↔ ∃ (k : Nat) (m : Bytes), b.pending[k]? = some (i, m) ∧
      Accepted heard (first + k)) : Marks b (b.confirmAll confirmed) first heard where
  payloads := by
    apply List.ext_getElem?
    intro i
    simp only [List.getElem?_map, Delivery.Batch.getElem?_confirmAll, Option.map_map]
    congr 1
    funext e
    simp only [Function.comp]
    split <;> rfl
  kept i m hi := by
    rw [Delivery.Batch.getElem?_confirmAll, hi, Option.map_some]
    split <;> rfl
  decided k i m hk := by
    have hi := Delivery.Batch.mem_pending.1 (List.mem_of_getElem? hk)
    have hiff : i ∈ confirmed ↔ Accepted heard (first + k) := by
      rw [h]
      refine ⟨?_, fun haccepted => ⟨k, m, hk, haccepted⟩⟩
      rintro ⟨k', m', hk', haccepted⟩
      obtain rfl := Delivery.Batch.eq_of_getElem?_pending hk hk'
      exact haccepted
    by_cases hmem : i ∈ confirmed
    · refine ⟨true, ?_, iff_of_true rfl (hiff.1 hmem)⟩
      rw [Delivery.Batch.getElem?_confirmAll, hi, Option.map_some, if_pos hmem]
    · refine ⟨false, ?_, iff_of_false Bool.false_ne_true (mt hiff.2 hmem)⟩
      rw [Delivery.Batch.getElem?_confirmAll, hi, Option.map_some, if_neg hmem]

/-- The answers decide what the batch is afterwards. -/
theorem Marks.unique {b b₁ b₂ : Delivery.Batch} {first₁ first₂ : Nat} {heard₁ heard₂ : List Frame}
    (h₁ : Marks b b₁ first₁ heard₁) (h₂ : Marks b b₂ first₂ heard₂)
    (hsame : ∀ k < b.pending.length,
      (Accepted heard₁ (first₁ + k) ↔ Accepted heard₂ (first₂ + k))) : b₁ = b₂ := by
  have hentries : ∀ i : Nat, b₁.entries[i]? = b₂.entries[i]? := by
    intro i
    cases hi : b.entries[i]? with
    | none =>
      have hnone : ∀ {b' : Delivery.Batch}, b'.entries.map Delivery.Entry.payload =
          b.entries.map Delivery.Entry.payload → b'.entries[i]? = none := by
        intro b' hb'
        rw [List.getElem?_eq_none_iff] at hi ⊢
        rwa [← List.length_map Delivery.Entry.payload, hb', List.length_map]
      rw [hnone h₁.payloads, hnone h₂.payloads]
    | some e =>
      obtain ⟨m, confirmed⟩ := e
      cases confirmed with
      | true => rw [h₁.kept i m hi, h₂.kept i m hi]
      | false =>
        obtain ⟨k, hk⟩ := List.mem_iff_getElem?.1 (Delivery.Batch.mem_pending.2 hi)
        obtain ⟨c₁, hc₁, hiff₁⟩ := h₁.decided k i m hk
        obtain ⟨c₂, hc₂, hiff₂⟩ := h₂.decided k i m hk
        have hk' : k < b.pending.length := (List.getElem?_eq_some_iff.1 hk).1
        obtain rfl : c₁ = c₂ := Bool.eq_iff_iff.2 (hiff₁.trans ((hsame k hk').trans hiff₂.symm))
        rw [hc₁, hc₂]
  exact congrArg Delivery.Batch.mk (List.ext_getElem? hentries)

/-! ## One answer to each number -/

section Replies

variable {ν : Type} [Wire ν]

/-- What is read from a wire is the beginning of all that it yields, or goes on behind it. -/
theorem Yields.compare {w w₁ w₂ : ν} {heard frames : List Frame} (h : Yields w heard w₁)
    (h' : Yields w frames w₂) :
    (∃ rest, frames = heard ++ rest ∧ Yields w₁ rest w₂) ∨
      ∃ f after, heard = frames ++ f :: after := by
  induction h generalizing frames with
  | nil w => exact .inl ⟨frames, rfl, h'⟩
  | @cons w w' w₁ f heard hread _ ih =>
    cases h' with
    | nil => exact .inr ⟨f, heard, rfl⟩
    | cons hread' hframes =>
      obtain ⟨hf, rfl⟩ := Prod.mk.inj (hread.symm.trans hread')
      cases hf
      rcases ih hframes with ⟨rest, rfl, hrest⟩ | ⟨g, after, rfl⟩
      · exact .inl ⟨rest, rfl, hrest⟩
      · exact .inr ⟨g, after, rfl⟩

/-- Among the frames on a wire is one answer to each of some consecutive numbers, and none of them
closes the session. The answers may stand in any order and between any other frames. -/
def Replies (w : ν) (first count : Nat) (answer : Nat → Bytes) : Prop :=
  ∃ frames w', Yields w frames w' ∧ (∀ f ∈ frames, f.command ≠ closing) ∧
    ∀ k < count, frames.filter (Frame.answers (first + k)) = [⟨first + k, answering, answer k⟩]

/-- When each number gets one answer, waiting ends well and every answer is heard. -/
theorem Settles.of_replies {w w' : ν} {first count : Nat} {answer : Nat → Bytes}
    {heard : List Frame} {result : Except Fault Unit} (hreplies : Replies w first count answer)
    (h : Settles (fun x => first ≤ x ∧ x < first + count) w heard result w') :
    result = .ok () ∧ ∀ k < count,
      heard.find? (Frame.answers (first + k)) = some ⟨first + k, answering, answer k⟩ := by
  obtain ⟨frames, w₂, hframes, hopen, hanswer⟩ := hreplies
  obtain ⟨⟨w₁, hyields, hstops⟩, hneeded⟩ := h
  have hnot : ¬ Waiting (fun x => first ≤ x ∧ x < first + count) frames := by
    rintro ⟨⟨x, ⟨hle, hlt⟩, hmissing⟩, -⟩
    obtain ⟨k, rfl⟩ := Nat.exists_eq_add_of_le hle
    have hk := hanswer k (Nat.lt_of_add_lt_add_left hlt)
    rw [List.filter_eq_nil_iff.2 (by simpa using hmissing)] at hk
    cases hk
  -- not more is read than there is
  obtain ⟨rest, rfl, hrest⟩ : ∃ rest, frames = heard ++ rest ∧ Yields w₁ rest w₂ := by
    rcases hyields.compare hframes with h | ⟨f, after, heq⟩
    · exact h
    · exact absurd (hneeded frames f after heq) hnot
  cases hstops with
  | answered hall _ =>
    refine ⟨rfl, fun k hk => ?_⟩
    obtain ⟨f, hf, hfk⟩ := hall (first + k) ⟨by omega, by omega⟩
    have hsome : (heard.find? (Frame.answers (first + k))).isSome = true :=
      List.find?_isSome.2 ⟨f, hf, hfk⟩
    rw [← Option.or_of_isSome hsome, ← List.find?_append, ← List.head?_filter, hanswer k hk]
    rfl
  | @closed before f heq hclosing =>
    exact absurd hclosing (hopen f (by simp [heq]))
  | failed hwaiting hread =>
    cases hrest with
    | nil => exact absurd (by rwa [List.append_nil]) hnot
    | cons hread' _ => cases hread.symm.trans hread'

theorem accepted_of_find? {heard : List Frame} {x : Nat} {data : Bytes}
    (h : heard.find? (Frame.answers x) = some ⟨x, answering, data⟩) :
    Accepted heard x ↔ Text.Utf8.encode "200" <+: data := by
  simp only [Accepted, h, Option.some.injEq, exists_eq_left']

end Replies

/-! ## Outcomes -/

section Outcome

variable {ν : Type} [Wire ν]

/-- The wire when the frames of a commit have been written. -/
def Connection.listening (c : Connection ν) (pending : List (Nat × Bytes)) : ν :=
  (Wire.write (c.frames pending) c.wire).2

/-- There is a connection that takes the frames of a commit, and there are numbers left for them. -/
structure Connection.Ready (c : Connection ν) (pending : List (Nat × Bytes)) : Prop where
  connected : c.connected = true
  room : c.nextTxnr + pending.length ≤ maxTxnr + 1
  written : (Wire.write (c.frames pending) c.wire).1 = .ok ()

/-- What comes of committing a batch: one command for each pending message is written, in the order
of the batch and under the next numbers; then frames are heard until waiting for the answers to
these numbers ends; and the batch is marked by what was heard. -/
structure Outcome (b : Delivery.Batch) (before : Connection ν) (heard : List Frame)
    (result : Except Fault Unit) (confirmed : List Nat) (after : Connection ν) : Prop where
  written : Wire.write (Connection.commands before.nextTxnr b.pending) before.wire =
    (.ok (), before.listening b.pending)
  settled : Settles (fun x => before.nextTxnr ≤ x ∧ x < before.nextTxnr + b.pending.length)
    (before.listening b.pending) heard result after.wire
  marked : Marks b (b.confirmAll confirmed) before.nextTxnr heard
  connected : after.connected = true
  advanced : before.nextTxnr + b.pending.length ≤ maxTxnr →
    after.nextTxnr = before.nextTxnr + b.pending.length

theorem Connection.Ready.write_eq {c : Connection ν} {pending : List (Nat × Bytes)}
    (h : c.Ready pending) : Wire.write (c.frames pending) c.wire = (.ok (), c.listening pending) :=
  Prod.ext h.written rfl

/-- A commit that can write its frames waits for the answers to them. -/
theorem Connection.Ready.commit_eq {c : Connection ν} {pending : List (Nat × Bytes)}
    (h : c.Ready pending) :
    c.commit pending =
      let settled := settle (c.number pending).1.2 [] (c.listening pending)
      (settled.1, settled.2.1, { (c.number pending).2 with wire := settled.2.2 }) :=
  commit_of_ok h.connected h.write_eq

theorem outcome_of_ready {c : Connection ν} {b : Delivery.Batch} (h : c.Ready b.pending) :
    ∃ heard result confirmed after, c.commit b.pending = (result, confirmed, after) ∧
      Outcome b c heard result confirmed after := by
  rw [h.commit_eq]
  generalize hsettle : settle (c.number b.pending).1.2 [] (c.listening b.pending) = settled
  obtain ⟨result, confirmed, w⟩ := settled
  obtain ⟨heard, hsettles, hconfirmed⟩ := settle_spec hsettle
  refine ⟨heard, result, confirmed, _, rfl, ?_, ?_, ?_, ?_, Connection.number_nextTxnr⟩
  · rw [← Connection.frames_eq_commands h.room, h.write_eq]
  · simpa only [Connection.mem_inFlight h.room] using hsettles
  · apply marks_confirmAll
    intro i
    rw [hconfirmed, or_iff_right List.not_mem_nil]
    simp only [AnsweredBy, Connection.getElem?_inFlight h.room, isSuccess_iff]
    constructor
    · rintro ⟨x, answer, ⟨k, m, rfl, hk⟩, hfind, hsuccess⟩
      exact ⟨k, m, hk, answer, hfind, hsuccess⟩
    · rintro ⟨k, m, hk, answer, hfind, hsuccess⟩
      exact ⟨c.nextTxnr + k, answer, ⟨k, m, rfl, hk⟩, hfind, hsuccess⟩
  · exact (c.number_wire b.pending).1.trans h.connected

/-- Committing a batch ends in one way whatever the frames are that the wire yields. If each of the
commands has one answer among them and no frame closes the session, every message is marked by its
own answer: the outcome is the same on any other connection on which the messages have the same
answers, in whatever order and between whatever other frames. -/
theorem commit_outcome {c : Connection ν} {b : Delivery.Batch} (h : c.Ready b.pending) :
    (∃ heard result confirmed after, c.commit b.pending = (result, confirmed, after) ∧
      Outcome b c heard result confirmed after) ∧
    ∀ {ν' : Type} [Wire ν'] {c' : Connection ν'} (answer : Nat → Bytes), c'.Ready b.pending →
      Replies (c.listening b.pending) c.nextTxnr b.pending.length answer →
      Replies (c'.listening b.pending) c'.nextTxnr b.pending.length answer →
      (c.commit b.pending).1 = .ok () ∧ (c'.commit b.pending).1 = .ok () ∧
        b.confirmAll (c.commit b.pending).2.1 = b.confirmAll (c'.commit b.pending).2.1 := by
  refine ⟨outcome_of_ready h, ?_⟩
  intro ν' _ c' answer h' hreplies hreplies'
  obtain ⟨heard, result, confirmed, after, hcommit, houtcome⟩ := outcome_of_ready h
  obtain ⟨heard', result', confirmed', after', hcommit', houtcome'⟩ := outcome_of_ready h'
  obtain ⟨hresult, hfind⟩ := houtcome.settled.of_replies hreplies
  obtain ⟨hresult', hfind'⟩ := houtcome'.settled.of_replies hreplies'
  rw [hcommit, hcommit']
  refine ⟨hresult, hresult', houtcome.marked.unique houtcome'.marked fun k hk => ?_⟩
  rw [accepted_of_find? (hfind k hk), accepted_of_find? (hfind' k hk)]

end Outcome

/-- A wire that takes all frames and yields those that were prepared, until the peer hangs up. -/
structure Prepared where
  frames : List Frame

instance : Wire Prepared where
  dial w := (.ok (), w)
  write _ w := (.ok (), w)
  read w :=
    match w.frames with
    | [] => (.error .serverClose, w)
    | f :: frames => (.ok f, ⟨frames⟩)
  hangUp _ := ⟨[]⟩
  unread w := w.frames.length
  unread_read := by
    rintro ⟨_ | ⟨f, frames⟩⟩ f' w' h
    · cases h
    · cases h
      exact Nat.lt_succ_self _

theorem Prepared.yields (frames : List Frame) : Yields (⟨frames⟩ : Prepared) frames ⟨[]⟩ := by
  induction frames with
  | nil => exact .nil _
  | cons f frames ih => exact .cons rfl ih

/-- Three messages, the second of which has been confirmed before. -/
def halfDone : Delivery.Batch :=
  ⟨[⟨[0x61], false⟩, ⟨[0x62], true⟩, ⟨[0x63], false⟩]⟩

/-- Success for the first command, failure for the others. -/
def verdict : Nat → Bytes
  | 0 => Text.Utf8.encode "200 OK"
  | _ => Text.Utf8.encode "500 no"

def inOrder : Connection Prepared where
  host := "collector"
  port := 2514
  wire := ⟨[⟨2, answering, verdict 0⟩, ⟨3, answering, verdict 1⟩]⟩
  connected := true
  nextTxnr := 2

/-- The answers come in the other order, after a success that answers neither command and behind a
frame that is no answer. -/
def outOfOrder : Connection Prepared where
  host := "collector"
  port := 2514
  wire := ⟨[⟨1, answering, verdict 0⟩, ⟨3, answering, verdict 1⟩, ⟨2, "syslog", verdict 1⟩,
    ⟨2, answering, verdict 0⟩]⟩
  connected := true
  nextTxnr := 2

theorem commit_outcome_outOfOrder :
    outOfOrder.Ready halfDone.pending ∧
    (∃ heard result confirmed after,
      outOfOrder.commit halfDone.pending = (result, confirmed, after) ∧
        Outcome halfDone outOfOrder heard result confirmed after) ∧
    (outOfOrder.commit halfDone.pending).1 = .ok () ∧
    (inOrder.commit halfDone.pending).1 = .ok () ∧
    halfDone.confirmAll (outOfOrder.commit halfDone.pending).2.1 =
      halfDone.confirmAll (inOrder.commit halfDone.pending).2.1 := by
  have hready : outOfOrder.Ready halfDone.pending := ⟨rfl, by decide, rfl⟩
  have hready' : inOrder.Ready halfDone.pending := ⟨rfl, by decide, rfl⟩
  have hreplies : Replies (outOfOrder.listening halfDone.pending) 2 2 verdict :=
    ⟨_, _, Prepared.yields _, by decide, by decide⟩
  have hreplies' : Replies (inOrder.listening halfDone.pending) 2 2 verdict :=
    ⟨_, _, Prepared.yields _, by decide, by decide⟩
  obtain ⟨houtcome, hsame⟩ := commit_outcome hready
  exact ⟨hready, houtcome, hsame verdict hready' hreplies hreplies'⟩

end EventRelay.Relp
