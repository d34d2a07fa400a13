import EventRelay.Delivery.Pool
import EventRelay.Proofs.Delivery.Batch
import EventRelay.Proofs.Delivery.Observed

/-!
# What a sender has confirmed

When a send ends well, each message was offered by some commit of it and confirmed by that commit,
and no later commit of the send offered it again (`confirmed_of_send_ok`). This holds for every
transport: what makes it true is that a batch learns of confirmations from commits only
(`getElem?_confirmAll`) and that a commit is offered exactly what is not confirmed (`mem_pending`).
`Accounts` is the invariant of the rounds.

A pool leaves a batch to one sender, so this holds of what a pool has sent as well (`Pool.Carried`).
-/

namespace EventRelay.Delivery

/-! ## Rounds -/

variable {σ : Type}

/-- A message was offered by a commit, which confirmed it, and was not offered again later on. -/
def ConfirmedOnce (i : Nat) (m : Bytes) (rounds : List (Round σ)) : Prop :=
  ∃ later r earlier, rounds = later ++ r :: earlier ∧ (i, m) ∈ r.offered ∧ i ∈ r.commit.confirmed ∧
    ∀ r' ∈ later, ∀ m', (i, m') ∉ r'.offered

theorem ConfirmedOnce.cons {i : Nat} {m : Bytes} {rounds : List (Round σ)} {r : Round σ}
    (h : ConfirmedOnce i m rounds) (hr : ∀ m', (i, m') ∉ r.offered) :
    ConfirmedOnce i m (r :: rounds) := by
  obtain ⟨later, r', earlier, rfl, hoffered, hconfirmed, hlater⟩ := h
  refine ⟨r :: later, r', earlier, rfl, hoffered, hconfirmed, ?_⟩
  intro r₀ hr₀
  rcases List.mem_cons.1 hr₀ with rfl | hr₀
  · exact hr
  · exact hlater r₀ hr₀

/-- A round is what a commit of the transport came to, and offered some of the messages, each at its
position. -/
structure Round.Faithful [Transport σ] (messages : List Bytes) (r : Round σ) : Prop where
  commits : ∃ after left, Transport.commit r.offered r.before = .returns after r.commit r.after left
  offers : ∀ (i : Nat) (m : Bytes), (i, m) ∈ r.offered → messages[i]? = some m

/-- What a batch and the notes of its rounds have to do with each other: the batch holds the
messages, and what it says to be confirmed was confirmed by one of the rounds, the last that
offered it. -/
structure Accounts [Transport σ] (messages : List Bytes) (batch : Batch) (rounds : List (Round σ)) :
    Prop where
  payloads : ∀ i : Nat, batch.entries[i]?.map Entry.payload = messages[i]?
  confirmed : ∀ (i : Nat) (m : Bytes), batch.entries[i]? = some ⟨m, true⟩ → ConfirmedOnce i m rounds
  faithful : ∀ r ∈ rounds, r.Faithful messages

namespace Accounts

variable [Transport σ] {messages : List Bytes} {batch : Batch} {rounds : List (Round σ)}

theorem ofMessages (messages : List Bytes) :
    Accounts messages (.ofMessages messages) ([] : List (Round σ)) where
  payloads i := by
    rw [Batch.getElem?_ofMessages]
    cases messages[i]? <;> rfl
  confirmed i m h := by
    rw [Batch.getElem?_ofMessages] at h
    cases hi : messages[i]? with
    | none => rw [hi] at h; cases h
    | some m' => rw [hi] at h; cases h
  faithful := nofun

theorem getElem?_of_mem_pending (h : Accounts messages batch rounds) {i : Nat} {m : Bytes}
    (hi : (i, m) ∈ batch.pending) : messages[i]? = some m := by
  rw [← h.payloads i, Batch.mem_pending.1 hi]
  rfl

/-- A round that offers what is pending accounts for what it confirms. -/
theorem round (h : Accounts messages batch rounds) {r : Round σ}
    (hoffered : r.offered = batch.pending)
    (hcommits : ∃ after left,
      Transport.commit r.offered r.before = .returns after r.commit r.after left) :
    Accounts messages (batch.confirmAll r.commit.confirmed) (r :: rounds) where
  payloads i := by
    rw [Batch.getElem?_confirmAll, ← h.payloads i, Option.map_map]
    congr 1
    funext e
    simp only [Function.comp_apply]
    split <;> rfl
  confirmed i m hi := by
    rw [Batch.getElem?_confirmAll, Option.map_eq_some_iff] at hi
    obtain ⟨⟨payload, confirmed⟩, he, heq⟩ := hi
    cases confirmed with
    | true =>
      -- confirmed before, so it is not offered
      obtain rfl : payload = m := by split at heq <;> cases heq <;> rfl
      apply (h.confirmed i payload he).cons
      intro m' hmem
      rw [hoffered, Batch.mem_pending, he] at hmem
      cases hmem
    | false =>
      split at heq
      · next hmem =>
        cases heq
        exact ⟨[], r, rounds, rfl, by rw [hoffered, Batch.mem_pending, he], hmem, nofun⟩
      · cases heq
  faithful r' hr' := by
    rcases List.mem_cons.1 hr' with rfl | hr'
    · exact ⟨hcommits, fun i m hi => h.getElem?_of_mem_pending (hoffered ▸ hi)⟩
    · exact h.faithful r' hr'

/-- When a batch is complete, every message was confirmed. -/
theorem confirmedOnce (h : Accounts messages batch rounds) (hcomplete : batch.complete = true)
    {i : Nat} {m : Bytes} (hi : messages[i]? = some m) : ConfirmedOnce i m rounds := by
  have hpayload := h.payloads i
  rw [hi, Option.map_eq_some_iff] at hpayload
  obtain ⟨⟨payload, confirmed⟩, he, rfl⟩ := hpayload
  obtain rfl : confirmed = true := Batch.confirmed_of_complete hcomplete he
  exact h.confirmed i payload he

end Accounts

/-! ## Sending -/

namespace Sender

variable [Transport σ]

theorem rounds_recover (s : Sender (Observed σ)) :
    s.recover.transport.rounds = s.transport.rounds :=
  unmoved_recover Observed.unmoved_rounds s

/-- Getting a connection makes no commits. -/
theorem rounds_ready {p : Patience} {rounds : Nat} {w w' : Wait} {result : Except Fault Unit}
    {s s' : Sender (Observed σ)} (h : s.ready p rounds w = some (.returned w' result s')) :
    s'.transport.rounds = s.transport.rounds :=
  unmoved_ready Observed.unmoved_rounds h

theorem rounds_await_commit {p : Patience} {w w' : Wait} {pending : List (Nat × Bytes)}
    {commit : Commit} {t t' : Observed σ}
    (h : p.await w (Transport.commit pending t) = .returned w' commit t') :
    ∃ r : Round σ, r.offered = pending ∧ r.commit = commit ∧ t'.rounds = r :: t.rounds ∧
      ∃ after left,
        Transport.commit r.offered r.before = .returns after r.commit r.after left := by
  change p.await w (t.commit pending) = _ at h
  unfold Observed.commit at h
  split at h
  · next after answer state left hcommit =>
    simp only [Patience.await] at h
    split at h
    · cases h
      exact ⟨⟨pending, t.inner, commit, state⟩, rfl, rfl, rfl, after, left, hcommit⟩
    · cases h
  · cases h

/-- A batch that is delivered was confirmed message by message. -/
theorem confirmed_of_deliver_ok {p : Patience} {connectRounds rounds attempts : Nat} {w w' : Wait}
    {messages : List Bytes} {batch : Batch} {s s' : Sender (Observed σ)}
    (haccounts : Accounts messages batch s.transport.rounds)
    (h : s.deliver p connectRounds rounds attempts w batch = some (.returned w' (.ok ()) s')) :
    (∀ r ∈ s'.transport.rounds, r.Faithful messages) ∧
      ∀ (i : Nat) (m : Bytes), messages[i]? = some m → ConfirmedOnce i m s'.transport.rounds := by
  induction rounds generalizing attempts w batch s with
  | zero => cases h
  | succ rounds ih =>
    simp only [deliver] at h
    split at h
    · cases h
    · cases h
    · cases h
    · next hready =>
      rw [← rounds_ready hready] at haccounts
      split at h
      · cases h
      · next hawait =>
        obtain ⟨r, hoffered, rfl, hrounds, hcommits⟩ := rounds_await_commit hawait
        have hround := haccounts.round hoffered hcommits
        rw [← hrounds] at hround
        split at h
        · next hcomplete =>
          cases h
          exact ⟨hround.faithful, fun i m hi => hround.confirmedOnce hcomplete hi⟩
        · split at h
          · cases h
          · split at h
            · cases h
            · exact ih hround h

/-- When a send ends well, each message was confirmed by a commit of it, the last that offered it.
-/
theorem confirmed_of_send_ok {rounds : Nat} {p : Patience} {messages : List Bytes} {w : Wait}
    {s : Sender σ} {s' : Sender (Observed σ)}
    (h : s.observed.send rounds p messages = some (.returned w (.ok ()) s')) :
    (∀ r ∈ s'.transport.rounds, r.Faithful messages) ∧
      ∀ (i : Nat) (m : Bytes), messages[i]? = some m → ConfirmedOnce i m s'.transport.rounds := by
  unfold send at h
  split at h
  · cases h
  · split at h
    · next hempty =>
      cases h
      rw [rounds_recover, List.isEmpty_iff.1 hempty]
      exact ⟨nofun, nofun⟩
    · refine confirmed_of_deliver_ok ?_ h
      rw [rounds_recover]
      exact .ofMessages messages

end Sender

/-! ## Pools -/

namespace Pool

variable [Transport σ]

/-- The sender whose turn it was has sent a batch, and each message of it was confirmed; the turn
has passed on, and the other senders are as before. -/
structure Carried (rounds : Nat) (patience : Patience) (messages : List Bytes) (p p' : Pool σ) :
    Prop where
  next_eq : p'.next = p.next + 1
  others : ∀ k : Nat, k ≠ p.turn → p'.senders[k]? = p.senders[k]?
  sent : ∃ (w : Wait) (s : Sender (Observed σ)),
    p.senders[p.turn].observed.send rounds patience messages = some (.returned w (.ok ()) s) ∧
      p'.senders[(p.turn : Nat)]? = some (s.map Observed.inner) ∧
      (∀ r ∈ s.transport.rounds, r.Faithful messages) ∧
      ∀ (i : Nat) (m : Bytes), messages[i]? = some m → ConfirmedOnce i m s.transport.rounds

theorem carried_of_send_ok {rounds : Nat} {patience : Patience} {messages : List Bytes} {w : Wait}
    {p p' : Pool σ} (h : p.send rounds patience messages = some (.returned w (.ok ()) p')) :
    p.Carried rounds patience messages p' := by
  obtain ⟨x, hsend, heq⟩ := Option.map_eq_some_iff.1 h
  cases x with
  | abandoned s => cases heq
  | returned w' result s =>
    cases heq
    obtain ⟨watched, hwatched, rfl⟩ := Sender.exists_observed_send hsend
    obtain ⟨hfaithful, hconfirmed⟩ := Sender.confirmed_of_send_ok hwatched
    refine ⟨rfl, ?_, w, watched, hwatched, ?_, hfaithful, hconfirmed⟩
    · intro k hk
      exact Array.getElem?_set_ne p.turn.isLt (Ne.symm hk)
    · exact Array.getElem?_set_self p.turn.isLt

end Pool

end EventRelay.Delivery
