import EventRelay.Delivery.Memory
import EventRelay.Delivery.Pool
import EventRelay.Proofs.Delivery.Confirmation
import EventRelay.Proofs.Delivery.Rounds

/-!
# Senders that keep messages in memory

A sender over memory that gives up nothing and never stalls delivers every batch, each message once
and in order (`send_usable`), however many connects and commits fail first. A failing commit keeps
all that is pending but the last message, so from then on only that one is offered, and every
failure is one less to come: that many rounds are enough.

In a pool the batches go around, so each sender gets its share (`send_pool`).
-/

namespace EventRelay.Delivery

/-! ## The transport -/

namespace Memory

/-- A memory that has kept the same, with the same to come of commits and no more of connects. -/
structure Resumes (m m' : Memory) : Prop where
  stalling_eq : m'.stallingCommits = m.stallingCommits
  commits_eq : m'.failingCommits = m.failingCommits
  connects_le : m'.failingConnects ≤ m.failingConnects
  delivered_eq : m'.delivered = m.delivered

variable {m m' m'' : Memory}

theorem Resumes.refl (m : Memory) : Resumes m m := ⟨rfl, rfl, Nat.le_refl _, rfl⟩

theorem Resumes.trans (h : Resumes m m') (h' : Resumes m' m'') : Resumes m m'' where
  stalling_eq := h'.stalling_eq.trans h.stalling_eq
  commits_eq := h'.commits_eq.trans h.commits_eq
  connects_le := Nat.le_trans h'.connects_le h.connects_le
  delivered_eq := h'.delivered_eq.trans h.delivered_eq

theorem resumes_tearDown (m : Memory) : Resumes m (Transport.tearDown m) :=
  ⟨rfl, rfl, Nat.le_refl _, rfl⟩

theorem connect_succeeds (h : m.failingConnects = 0) :
    ∃ m', Transport.connect m = .now true m' ∧ m'.connected = true ∧ Resumes m m' := by
  refine ⟨{ m with connects := m.connects + 1, connected := true }, ?_, rfl, rfl, rfl,
    Nat.le_refl _, rfl⟩
  change Call.now m.connect.1 m.connect.2 = _
  simp only [connect, h]

theorem connect_fails {n : Nat} (h : m.failingConnects = n + 1) :
    ∃ m', Transport.connect m = .now false m' ∧ m'.failingConnects = n ∧ Resumes m m' := by
  refine ⟨{ m with connects := m.connects + 1, failingConnects := n }, ?_, rfl, rfl, rfl, ?_, rfl⟩
  · change Call.now m.connect.1 m.connect.2 = _
    simp only [connect, h]
  · rw [h]
    exact Nat.le_succ n

/-- The texts of messages. -/
def texts (pending : List (Nat × Bytes)) : List String :=
  (pending.map Prod.snd).map Text.Utf8.decodeLossy

/-- A memory has kept messages besides, with the same to come of connects. -/
structure Gains (kept : List (Nat × Bytes)) (m m' : Memory) : Prop where
  stalling_eq : m'.stallingCommits = m.stallingCommits
  connects_eq : m'.failingConnects = m.failingConnects
  connected_eq : m'.connected = m.connected
  delivered_eq : m'.delivered.toList = m.delivered.toList ++ texts kept

section Commit

variable (hlive : m.connected = true) (hprompt : m.stallingCommits = 0)
include hlive hprompt

theorem commit_succeeds (h : m.failingCommits = 0) (pending : List (Nat × Bytes)) :
    ∃ m', Transport.commit pending m = .now ⟨pending.map Prod.fst, true⟩ m' ∧
      m'.failingCommits = 0 ∧ Gains pending m m' := by
  refine ⟨keep pending { m with commits := m.commits + 1 }, ?_, h, rfl, rfl, rfl, ?_⟩
  · simp only [Transport.commit, hprompt, commit, hlive, h, if_true]
  · simp only [keep, Array.toList_appendList, texts, List.map_map]
    rfl

theorem commit_fails {n : Nat} (h : m.failingCommits = n + 1) (pending : List (Nat × Bytes)) :
    ∃ m', Transport.commit pending m = .now ⟨pending.dropLast.map Prod.fst, false⟩ m' ∧
      m'.failingCommits = n ∧ Gains pending.dropLast m m' := by
  refine ⟨keep pending.dropLast { m with commits := m.commits + 1, failingCommits := n }, ?_, rfl,
    rfl, rfl, rfl, ?_⟩
  · simp only [Transport.commit, hprompt, commit, hlive, h, if_true]
  · simp only [keep, Array.toList_appendList, texts, List.map_map]
    rfl

end Commit

end Memory

/-! ## One sender -/

namespace Sender

/-- A sender over memory that goes on until all is delivered, with fewer failures to come than it
has rounds. Between two operations none of its commits is under way. -/
structure Usable (rounds : Nat) (s : Sender Memory) : Prop where
  unbounded : s.policy.maxAttempts = none
  prompt : s.transport.stallingCommits = 0
  connects_lt : s.transport.failingConnects < rounds
  commits_lt : s.transport.failingCommits < rounds
  idle : s.state = .connecting ∨ s.state = .connected ∧ s.transport.connected = true

/-- A sender has a connection and is otherwise as another one was. -/
structure Connects (s s' : Sender Memory) : Prop where
  policy_eq : s'.policy = s.policy
  connected : s'.state = .connected
  live : s'.transport.connected = true
  resumes : s.transport.Resumes s'.transport

variable {s s' : Sender Memory} {rounds : Nat}

theorem Usable.of_connects (h : Usable rounds s) (h' : Connects s s') : Usable rounds s' where
  unbounded := h'.policy_eq ▸ h.unbounded
  prompt := h'.resumes.stalling_eq.trans h.prompt
  connects_lt := Nat.lt_of_le_of_lt h'.resumes.connects_le h.connects_lt
  commits_lt := h'.resumes.commits_eq ▸ h.commits_lt
  idle := .inr ⟨h'.connected, h'.live⟩

section Gains

variable {t : Memory} {kept : List (Nat × Bytes)} (h : Usable rounds s)
  (hgains : s.transport.Gains kept t) (hle : t.failingCommits ≤ s.transport.failingCommits)
include h hgains hle

theorem Usable.committed (hlive : s.transport.connected = true) :
    Usable rounds { s with transport := t, state := .connected } where
  unbounded := h.unbounded
  prompt := hgains.stalling_eq.trans h.prompt
  connects_lt := hgains.connects_eq ▸ h.connects_lt
  commits_lt := Nat.lt_of_le_of_lt hle h.commits_lt
  idle := .inr ⟨rfl, hgains.connected_eq.trans hlive⟩

theorem Usable.torn : Usable rounds (reset { s with transport := t }) where
  unbounded := h.unbounded
  prompt := hgains.stalling_eq.trans h.prompt
  connects_lt := hgains.connects_eq ▸ h.connects_lt
  commits_lt := Nat.lt_of_le_of_lt hle h.commits_lt
  idle := .inl rfl

end Gains

theorem not_exhausted (h : s.policy.maxAttempts = none) (attempts : Nat) :
    s.policy.exhausted attempts = false := by
  unfold RetryPolicy.exhausted
  rw [h]

theorem establish_of_fails {t : Memory} (h : s.policy.maxAttempts = none)
    (ht : Transport.connect s.transport = .now false t) (rounds attempts : Nat) (w : Wait) :
    ∃ w', s.establish .forever (rounds + 1) attempts w =
      (reset { s with transport := t }).establish .forever rounds (attempts + 1) w' :=
  ⟨_, establish_retries ht (not_exhausted h _) rounds w⟩

/-- Each failing connect is one less to come. -/
theorem establish_unbounded (h : s.policy.maxAttempts = none)
    (hlt : s.transport.failingConnects < rounds) (attempts : Nat) (w : Wait) :
    ∃ w' s', s.establish .forever rounds attempts w = some (.returned w' (.ok ()) s') ∧
      Connects s s' := by
  induction rounds generalizing attempts w s with
  | zero => exact absurd hlt (Nat.not_lt_zero _)
  | succ rounds ih =>
    cases hfail : s.transport.failingConnects with
    | zero =>
      obtain ⟨t, hconnect, hlive, hresumes⟩ := Memory.connect_succeeds hfail
      refine ⟨{ w with elapsed := w.elapsed + 0 }, { s with transport := t, state := .connected },
        ?_, rfl, rfl, hlive, hresumes⟩
      rw [establish, hconnect]
      rfl
    | succ n =>
      obtain ⟨t, hconnect, hn, hresumes⟩ := Memory.connect_fails hfail
      obtain ⟨w₁, hretry⟩ := establish_of_fails h hconnect rounds attempts w
      have hless : (Transport.tearDown t).failingConnects < rounds := by
        change t.failingConnects < rounds
        omega
      obtain ⟨w', s', hs', hconnects⟩ := @ih (reset { s with transport := t }) h hless
        (attempts + 1) w₁
      exact ⟨w', s', hretry.trans hs', hconnects.policy_eq, hconnects.connected, hconnects.live,
        (hresumes.trans (Memory.resumes_tearDown t)).trans hconnects.resumes⟩

theorem connect_unbounded {policy : RetryPolicy} {t : Memory} (h : policy.maxAttempts = none)
    (hprompt : t.stallingCommits = 0) (hconnects : t.failingConnects < rounds)
    (hcommits : t.failingCommits < rounds) :
    ∃ w s, connect rounds policy t = some (.returned w (.ok ()) s) ∧ Usable rounds s ∧
      s.transport.delivered = t.delivered := by
  obtain ⟨w, s, hs, hcon⟩ := establish_unbounded (s := { transport := t, policy }) h hconnects 0 {}
  have husable : Usable rounds { transport := t, policy } :=
    ⟨h, hprompt, hconnects, hcommits, .inl rfl⟩
  exact ⟨w, s, hs, husable.of_connects hcon, hcon.resumes.delivered_eq⟩

theorem ready_usable (h : Usable rounds s) (w : Wait) :
    ∃ w' s', s.ready .forever rounds w = some (.returned w' (.ok ()) s') ∧ Connects s s' := by
  unfold ready
  split
  · exact establish_unbounded h.unbounded h.connects_lt 0 w
  · next hconnecting =>
    obtain ⟨hconnected, hlive⟩ := h.idle.resolve_left hconnecting
    exact ⟨w, s, rfl, rfl, hconnected, hlive, .refl _⟩

section Round

variable {s₁ : Sender Memory} {w w₁ : Wait} {batch : Batch} {commit : Commit} {t : Memory}
  (hready : s.ready .forever rounds w = some (.returned w₁ (.ok ()) s₁))
  (hcommit : Transport.commit batch.pending s₁.transport = .now commit t)
include hready hcommit

theorem deliver_of_complete (h : (batch.confirmAll commit.confirmed).complete = true)
    (left attempts : Nat) :
    ∃ w', s.deliver .forever rounds (left + 1) attempts w batch =
      some (.returned w' (.ok ()) { s₁ with transport := t, state := .connected }) :=
  ⟨_, deliver_verified hready hcommit h left attempts⟩

theorem deliver_of_incomplete (hbound : s₁.policy.maxAttempts = none)
    (h : (batch.confirmAll commit.confirmed).complete = false) (left attempts : Nat) :
    ∃ w', s.deliver .forever rounds (left + 1) attempts w batch =
      (reset { s₁ with transport := t }).deliver .forever rounds left (attempts + 1) w'
        (batch.confirmAll commit.confirmed) :=
  ⟨_, deliver_retries hready hcommit h (not_exhausted hbound _) left⟩

end Round

-- By induction on the rounds, of which there are more than commits that will fail. What is kept and
-- what is still pending make up what was to be delivered.
theorem deliver_usable {left : Nat} (h : Usable rounds s) (hlt : s.transport.failingCommits < left)
    (attempts : Nat) (w : Wait) (batch : Batch) :
    ∃ w' s', s.deliver .forever rounds left attempts w batch =
        some (.returned w' (.ok ()) s') ∧ Usable rounds s' ∧
      s'.transport.delivered.toList =
        s.transport.delivered.toList ++ Memory.texts batch.pending := by
  induction left generalizing attempts w batch s with
  | zero => exact absurd hlt (Nat.not_lt_zero _)
  | succ left ih =>
    obtain ⟨w₁, s₁, hready, hconnects⟩ := ready_usable h w
    have h₁ : Usable rounds s₁ := h.of_connects hconnects
    rw [← hconnects.resumes.commits_eq] at hlt
    rw [← hconnects.resumes.delivered_eq]
    cases hfail : s₁.transport.failingCommits with
    | zero =>
      obtain ⟨t, hcommit, hnone, hgains⟩ :=
        Memory.commit_succeeds hconnects.live h₁.prompt hfail batch.pending
      obtain ⟨w', hdone⟩ := deliver_of_complete hready hcommit
        (Batch.complete_iff.2 (Batch.pending_confirm_all batch)) left attempts
      exact ⟨w', _, hdone, h₁.committed hgains (hnone ▸ Nat.zero_le _) hconnects.live,
        hgains.delivered_eq⟩
    | succ n =>
      obtain ⟨t, hcommit, hless, hgains⟩ :=
        Memory.commit_fails hconnects.live h₁.prompt hfail batch.pending
      have hle : t.failingCommits ≤ s₁.transport.failingCommits := by omega
      rcases List.eq_nil_or_concat batch.pending with hnil | ⟨init, last, hlast⟩
      · -- nothing was pending, so nothing is, although the commit failed
        have hcomplete :
            (batch.confirmAll (batch.pending.dropLast.map Prod.fst)).complete = true := by
          rw [Batch.complete_iff, Batch.pending_confirmAll, hnil]
          rfl
        obtain ⟨w', hdone⟩ := deliver_of_complete hready hcommit hcomplete left attempts
        refine ⟨w', _, hdone, h₁.committed hgains hle hconnects.live, ?_⟩
        rw [hnil] at hgains ⊢
        exact hgains.delivered_eq
      · rw [List.concat_eq_append] at hlast
        have hpending : (batch.confirmAll (batch.pending.dropLast.map Prod.fst)).pending = [last] :=
          Batch.pending_confirm_dropLast hlast
        have hincomplete :
            (batch.confirmAll (batch.pending.dropLast.map Prod.fst)).complete = false := by
          rw [← Bool.not_eq_true, Batch.complete_iff, hpending]
          nofun
        obtain ⟨w₂, hretry⟩ := deliver_of_incomplete hready hcommit h₁.unbounded hincomplete left
          attempts
        obtain ⟨w', s', hs', husable, hdelivered⟩ := ih (s := reset { s₁ with transport := t })
          (h₁.torn hgains hle) (show t.failingCommits < left by omega) (attempts + 1) w₂
          (batch.confirmAll (batch.pending.dropLast.map Prod.fst))
        refine ⟨w', s', hretry.trans hs', husable, ?_⟩
        calc s'.transport.delivered.toList
            = t.delivered.toList ++ Memory.texts [last] := by rw [hdelivered, hpending]; rfl
          _ = s₁.transport.delivered.toList ++ Memory.texts init ++ Memory.texts [last] := by
              rw [hgains.delivered_eq, hlast, List.dropLast_concat]
          _ = s₁.transport.delivered.toList ++ Memory.texts batch.pending := by
              rw [hlast, List.append_assoc, Memory.texts, Memory.texts, Memory.texts,
                List.map_append, List.map_append]

theorem send_usable (h : Usable rounds s) (messages : List Bytes) :
    ∃ w s', s.send rounds .forever messages = some (.returned w (.ok ()) s') ∧ Usable rounds s' ∧
      s'.transport.delivered.toList =
        s.transport.delivered.toList ++ messages.map Text.Utf8.decodeLossy := by
  have hclosed : s.state ≠ .closed := by
    rcases h.idle with hs | ⟨hs, -⟩ <;> rw [hs] <;> nofun
  have hrecover : s.recover = s := by
    unfold recover
    rw [if_neg]
    rcases h.idle with hs | ⟨hs, -⟩ <;> rw [hs] <;> nofun
  unfold send
  rw [if_neg hclosed, hrecover]
  split
  · next hempty =>
    refine ⟨{}, s, rfl, h, ?_⟩
    rw [List.isEmpty_iff.1 hempty, List.map_nil, List.append_nil]
  · obtain ⟨w, s', hs', husable, hdelivered⟩ := deliver_usable h h.commits_lt 0 {}
      (.ofMessages messages)
    refine ⟨w, s', hs', husable, ?_⟩
    rw [hdelivered, Memory.texts, Batch.map_snd_pending_ofMessages]

end Sender

/-! ## A pool of them -/

namespace Pool

/-- Every sender of a pool can be used. -/
def Usable (rounds : Nat) (p : Pool Memory) : Prop := ∀ s ∈ p.senders, s.Usable rounds

/-- What a sender of a pool has delivered. -/
def delivered? (p : Pool Memory) (k : Nat) : Option (List String) :=
  p.senders[k]?.map fun s => s.transport.delivered.toList

variable {rounds : Nat} {p : Pool Memory}

/-- A batch is delivered by the sender whose turn it is. -/
theorem send_pool (h : p.Usable rounds) (messages : List Bytes) :
    ∃ w p', p.send rounds .forever messages = some (.returned w (.ok ()) p') ∧ p'.Usable rounds ∧
      p'.size = p.size ∧ p'.next = p.next + 1 ∧
      ∀ k, p'.delivered? k = (p.delivered? k).map fun d =>
        d ++ if p.next % p.size = k then messages.map Text.Utf8.decodeLossy else [] := by
  obtain ⟨w, s, hs, husable, hdelivered⟩ := Sender.send_usable
    (h p.senders[p.turn] (Array.getElem_mem p.turn.isLt)) messages
  refine ⟨w, p.advance s, ?_, ?_, Array.size_set p.turn.isLt, rfl, ?_⟩
  · unfold send
    rw [hs]
    rfl
  · intro s' hs'
    rcases Array.mem_or_eq_of_mem_set (w := p.turn.isLt) hs' with hs' | rfl
    · exact h s' hs'
    · exact husable
  · intro k
    have hset : (p.advance s).senders[k]? = if p.turn.val = k then some s else p.senders[k]? :=
      Array.getElem?_set p.turn.isLt
    unfold delivered?
    rw [hset]
    by_cases hk : p.next % p.size = k
    · have hturn : p.turn.val = k := hk
      simp only [if_pos hk, if_pos hturn, Option.map_some]
      rw [← hturn, Array.getElem?_eq_getElem p.turn.isLt]
      exact congrArg some hdelivered
    · have hturn : p.turn.val ≠ k := hk
      simp only [if_neg hk, if_neg hturn, List.append_nil, Option.map_id']

end Pool

end EventRelay.Delivery
