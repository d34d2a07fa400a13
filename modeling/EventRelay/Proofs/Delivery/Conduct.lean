import EventRelay.Delivery.Operation
import EventRelay.Delivery.Recorded
import EventRelay.Proofs.Delivery.Batch
import EventRelay.Proofs.Delivery.Observed

/-!
# What a sender does to its transport

`Conduct` says which calls a sender can have made when it is in some state, with one rule for each
thing that it does. A sender over a transport that keeps a log obeys it whenever callers go away:
each operation keeps it, whether it ends well, fails or is abandoned (`Kept`), so it holds after
every history (`conduct_history`). As the log takes no part in the work (`history_map`), nothing is
assumed of the transport. What is to be known of the calls of a sender follows from the rules by
induction, without another look at its loops.
-/

namespace EventRelay.Delivery

/-- Everything that a commit was offered is confirmed. -/
def Commit.Covers (result : Commit) (offered : List Nat) : Prop :=
  ∀ i ∈ offered, i ∈ result.confirmed

instance (result : Commit) (offered : List Nat) : Decidable (result.Covers offered) :=
  inferInstanceAs (Decidable (∀ i ∈ offered, i ∈ result.confirmed))

/-- The calls that a sender in some state has made, the latest first. -/
inductive Conduct : Sender.State → List CallNote → Prop
  | start : Conduct .connecting []
  | connected {log : List CallNote} (h : Conduct .connecting log) :
    Conduct .connected (.connect (some true) :: log)
  /-- A connect failed. -/
  | refused {log : List CallNote} (h : Conduct .connecting log) :
    Conduct .connecting (.tearDown :: .connect (some false) :: log)
  /-- The caller went away from a connect. -/
  | undecided {log : List CallNote} (h : Conduct .connecting log) :
    Conduct .connecting (.connect none :: log)
  /-- A commit confirmed everything; how it ended makes no difference. -/
  | verified {log : List CallNote} {offered : List Nat} {result : Commit}
    (h : Conduct .connected log) (hall : result.Covers offered) :
    Conduct .connected (.commit offered (some result) :: log)
  | unverified {log : List CallNote} {offered : List Nat} {result : Commit}
    (h : Conduct .connected log) (hnot : ¬ result.Covers offered) :
    Conduct .connecting (.tearDown :: .commit offered (some result) :: log)
  /-- The caller went away from a commit. -/
  | interrupted {log : List CallNote} {offered : List Nat} (h : Conduct .connected log) :
    Conduct .sending (.commit offered none :: log)
  /-- An interrupted commit is dealt with. -/
  | recovered {log : List CallNote} (h : Conduct .sending log) :
    Conduct .connecting (.tearDown :: log)
  /-- A sender without a connection is closed. -/
  | dropped {log : List CallNote} (h : Conduct .connecting log) : Conduct .closed (.tearDown :: log)
  /-- A sender with a connection is closed. -/
  | disconnected {log : List CallNote} {state : Sender.State} {ok : Bool} (h : Conduct state log)
    (hclosed : state ≠ .closed) (hconnecting : state ≠ .connecting) :
    Conduct .closed (.tearDown :: .disconnect (some ok) :: log)

/-! ## Recorded calls -/

namespace Recorded

variable {σ : Type}

theorem await_note {α : Type} (f : Option α → CallNote) (log : List CallNote) (p : Patience)
    (w : Wait) (c : Call α σ) :
    (∃ w' a t, p.await w (note f log c) = .returned w' a t ∧ t.log = f (some a) :: log) ∨
      ∃ t, p.await w (note f log c) = .abandoned t ∧ t.log = f none :: log := by
  cases c with
  | returns after answer state left =>
    simp only [note, Patience.await]
    split
    · exact .inl ⟨_, _, _, rfl, rfl⟩
    · exact .inr ⟨_, rfl, rfl⟩
  | hangs left => exact .inr ⟨_, rfl, rfl⟩

theorem note_mapState {α : Type} (f : Option α → CallNote) (log : List CallNote) (c : Call α σ) :
    (note f log c).mapState Recorded.inner = c := by
  cases c <;> rfl

variable [Transport σ]

theorem await_connect (p : Patience) (w : Wait) (t : Recorded σ) :
    (∃ w' ok t', p.await w (Transport.connect t) = .returned w' ok t' ∧
        t'.log = .connect (some ok) :: t.log) ∨
      ∃ t', p.await w (Transport.connect t) = .abandoned t' ∧ t'.log = .connect none :: t.log :=
  await_note .connect t.log p w (Transport.connect t.inner)

theorem await_commit (p : Patience) (w : Wait) (pending : List (Nat × Bytes)) (t : Recorded σ) :
    (∃ w' commit t', p.await w (Transport.commit pending t) = .returned w' commit t' ∧
        t'.log = .commit (pending.map Prod.fst) (some commit) :: t.log) ∨
      ∃ t', p.await w (Transport.commit pending t) = .abandoned t' ∧
        t'.log = .commit (pending.map Prod.fst) none :: t.log :=
  await_note (.commit (pending.map Prod.fst)) t.log p w (Transport.commit pending t.inner)

theorem await_disconnect (p : Patience) (w : Wait) (t : Recorded σ) :
    (∃ w' ok t', p.await w (Transport.disconnect t) = .returned w' ok t' ∧
        t'.log = .disconnect (some ok) :: t.log) ∨
      ∃ t', p.await w (Transport.disconnect t) = .abandoned t' ∧
        t'.log = .disconnect none :: t.log :=
  await_note .disconnect t.log p w (Transport.disconnect t.inner)

theorem forgets_inner : Forgets (Recorded.inner (σ := σ)) where
  connect t := (note_mapState .connect t.log _).symm
  commit pending t := (note_mapState (.commit (pending.map Prod.fst)) t.log _).symm
  tearDown _ := rfl

end Recorded

namespace Sender

variable {σ : Type}

/-! ## Each operation -/

/-- What an operation that does not close leaves behind. -/
structure Kept (x : Result (Recorded σ)) : Prop where
  conduct : Conduct x.state.state x.state.transport.log
  not_closed : x.state.state ≠ .closed
  connected_of_ok : ∀ {w s}, x = .returned w (.ok ()) s → s.state = .connected

namespace Kept

variable {s : Sender (Recorded σ)} (h : Conduct s.state s.transport.log)
include h

theorem of_abandoned (hs : s.state ≠ .closed) : Kept (.abandoned s) := ⟨h, hs, nofun⟩

theorem of_error {w : Wait} {e : Fault} (hs : s.state ≠ .closed) :
    Kept (.returned w (.error e) s) :=
  ⟨h, hs, nofun⟩

theorem of_ok {w : Wait} (hs : s.state = .connected) : Kept (.returned w (.ok ()) s) := by
  refine ⟨h, ?_, ?_⟩
  · change s.state ≠ .closed
    rw [hs]
    nofun
  · intro w' s' heq
    cases heq
    exact hs

end Kept

variable [Transport σ]

section Steps

variable {s : Sender (Recorded σ)} {x : Result (Recorded σ)} {p : Patience} {w : Wait}
  {rounds : Nat}

theorem kept_establish {attempts : Nat} (h : Conduct .connecting s.transport.log)
    (hs : s.state = .connecting) (hx : s.establish p rounds attempts w = some x) : Kept x := by
  have hne : State.connecting ≠ .closed := by decide
  induction rounds generalizing attempts w s with
  | zero => cases hx
  | succ rounds ih =>
    simp only [establish] at hx
    obtain ⟨w', ok, t, hawait, hlog⟩ | ⟨t, hawait, hlog⟩ := Recorded.await_connect p w s.transport
    all_goals rw [hawait] at hx
    · cases ok with
      | true =>
        cases hx
        exact .of_ok (hlog ▸ h.connected) rfl
      | false =>
        -- the tear-down is the next call, whatever the policy says
        have htorn : Conduct .connecting (Transport.tearDown t).log := by
          change Conduct .connecting (.tearDown :: t.log)
          exact hlog ▸ h.refused
        simp only at hx
        split at hx
        · cases hx
          exact .of_error htorn hne
        · split at hx
          · cases hx
            exact .of_abandoned htorn hne
          · exact ih htorn rfl hx
    · cases hx
      exact .of_abandoned (hlog ▸ h.undecided) hne

theorem kept_ready (h : Conduct s.state s.transport.log)
    (hs : s.state = .connecting ∨ s.state = .connected) (hx : s.ready p rounds w = some x) :
    Kept x := by
  unfold ready at hx
  split at hx
  · next hconnecting => exact kept_establish (hconnecting ▸ h) hconnecting hx
  · next hconnecting =>
    cases hx
    exact .of_ok h (hs.resolve_left hconnecting)

-- By induction on the rounds: each starts as the last one left the sender, with a connection or
-- without, and never in the middle of a commit.
theorem kept_deliver {connectRounds attempts : Nat} {batch : Batch}
    (h : Conduct s.state s.transport.log) (hs : s.state = .connecting ∨ s.state = .connected)
    (hx : s.deliver p connectRounds rounds attempts w batch = some x) : Kept x := by
  have hne : State.connecting ≠ .closed := by decide
  induction rounds generalizing attempts w batch s with
  | zero => cases hx
  | succ rounds ih =>
    simp only [deliver] at hx
    cases hready : s.ready p connectRounds w with
    | none =>
      rw [hready] at hx
      cases hx
    | some y =>
      have hy : Kept y := kept_ready h hs hready
      rw [hready] at hx
      cases y with
      | abandoned s₁ =>
        cases hx
        exact hy
      | returned w₁ result s₁ =>
        cases result with
        | error e =>
          cases hx
          exact hy
        | ok u =>
          have hs₁ : s₁.state = .connected := hy.connected_of_ok rfl
          have h₁ : Conduct .connected s₁.transport.log := hs₁ ▸ hy.conduct
          simp only at hx
          obtain ⟨w', commit, t, hawait, hlog⟩ | ⟨t, hawait, hlog⟩ :=
            Recorded.await_commit p w₁ batch.pending s₁.transport
          all_goals rw [hawait] at hx
          · -- the caller stayed: what is confirmed decides whether the connection is kept
            have hcovers : (batch.confirmAll commit.confirmed).complete = true ↔
                commit.Covers (batch.pending.map Prod.fst) := Batch.complete_confirmAll_iff
            simp only at hx
            split at hx
            · next hcomplete =>
              cases hx
              exact .of_ok (hlog ▸ h₁.verified (hcovers.1 hcomplete)) rfl
            · next hcomplete =>
              have htorn : Conduct .connecting (Transport.tearDown t).log := by
                change Conduct .connecting (.tearDown :: t.log)
                exact hlog ▸ h₁.unverified (mt hcovers.2 hcomplete)
              split at hx
              · cases hx
                exact .of_error htorn hne
              · split at hx
                · cases hx
                  exact .of_abandoned htorn hne
                · exact ih htorn (.inl rfl) hx
          · cases hx
            exact .of_abandoned (hlog ▸ h₁.interrupted) (by simp)

/-- After an interrupted commit the connection is dropped before anything else. -/
theorem conduct_recover (h : Conduct s.state s.transport.log) (hs : s.state ≠ .closed) :
    Conduct s.recover.state s.recover.transport.log ∧
      (s.recover.state = .connecting ∨ s.recover.state = .connected) := by
  unfold recover
  split
  · next hsending => exact ⟨.recovered (hsending ▸ h), .inl rfl⟩
  · next hsending =>
    refine ⟨h, ?_⟩
    cases hstate : s.state with
    | connecting => exact .inl rfl
    | connected => exact .inr rfl
    | sending => exact absurd hstate hsending
    | closed => exact absurd hstate hs

theorem conduct_send {messages : List Bytes} (h : Conduct s.state s.transport.log)
    (hs : s.state ≠ .closed) (hx : s.send rounds p messages = some x) :
    Conduct x.state.state x.state.transport.log ∧ x.state.state ≠ .closed := by
  obtain ⟨hrecover, hstate⟩ := conduct_recover h hs
  unfold send at hx
  rw [if_neg hs] at hx
  split at hx
  · cases hx
    refine ⟨hrecover, ?_⟩
    rcases hstate with hstate | hstate <;> simp [Outcome.state, hstate]
  · have hkept : Kept x := kept_deliver hrecover hstate hx
    exact ⟨hkept.conduct, hkept.not_closed⟩

theorem conduct_close {s' : Sender (Recorded σ)} (h : Conduct s.state s.transport.log)
    (hx : s.close = .returned w () s') :
    Conduct s'.state s'.transport.log ∧ s'.state = .closed := by
  unfold close at hx
  split at hx
  · next hstate =>
    cases hx
    exact ⟨h, hstate⟩
  · next hstate =>
    cases hx
    exact ⟨.dropped (hstate ▸ h), rfl⟩
  · next hclosed hconnecting =>
    obtain ⟨w', ok, t, hawait, hlog⟩ | ⟨t, hawait, hlog⟩ :=
      Recorded.await_disconnect .forever {} s.transport
    all_goals rw [hawait] at hx
    · cases hx
      have hgone : Conduct .closed (.tearDown :: t.log) := hlog ▸ h.disconnected hclosed hconnecting
      exact ⟨hgone, rfl⟩
    · cases hx

end Steps

/-! ## Histories -/

namespace Operation

variable {s s' : Sender (Recorded σ)} {x : Result (Recorded σ)} {rounds : Nat}
  {answers : List Answer}

theorem conduct_run {op : Operation} (h : Conduct s.state s.transport.log)
    (hx : op.run rounds s = some x) : Conduct x.state.state x.state.transport.log := by
  cases op with
  | send p messages =>
    by_cases hs : s.state = .closed
    · have hrun : s.send rounds p messages = some (.returned {} (.error .closed) s) := if_pos hs
      cases hrun.symm.trans hx
      exact h
    · exact (conduct_send h hs hx).1
  | close =>
    simp only [run] at hx
    split at hx
    · next hclose =>
      cases hx
      exact (conduct_close h hclose).1
    · cases hx

theorem conduct_runAll {ops : List Operation} (h : Conduct s.state s.transport.log)
    (hrun : runAll rounds ops s = some (answers, s')) : Conduct s'.state s'.transport.log := by
  induction ops generalizing s answers with
  | nil =>
    cases hrun
    exact h
  | cons op ops ih =>
    simp only [runAll] at hrun
    split at hrun
    · cases hrun
    · next x hx =>
      obtain ⟨⟨later, s₁⟩, hlater, heq⟩ := Option.map_eq_some_iff.1 hrun
      cases heq
      exact ih (conduct_run h hx) hlater

/-- Whatever is done to a sender, it obeys the rules. -/
theorem conduct_history {t : σ} {connectRounds : Nat} {policy : RetryPolicy} {p : Patience}
    {ops : List Operation}
    (h : history connectRounds rounds policy p ops ⟨t, []⟩ = some (answers, s')) :
    Conduct s'.state s'.transport.log := by
  obtain ⟨x, hconnect, hrun⟩ := Option.bind_eq_some_iff.1 h
  exact conduct_runAll (kept_establish .start rfl hconnect).conduct hrun

/-! ### A log takes no part in the work -/

theorem close_map (s : Sender (Recorded σ)) :
    (s.map Recorded.inner).close = s.close.mapState (map Recorded.inner) := by
  unfold Sender.close
  rw [show (s.map Recorded.inner).state = s.state from rfl]
  split
  · rfl
  · rfl
  · have hdisconnect : Transport.disconnect s.transport.inner =
        (Transport.disconnect s.transport).mapState Recorded.inner :=
      (Recorded.note_mapState .disconnect s.transport.log _).symm
    rw [show (s.map Recorded.inner).transport = s.transport.inner from rfl, hdisconnect,
      Patience.await_mapState]
    cases Patience.forever.await {} (Transport.disconnect s.transport) <;> rfl

theorem run_map (rounds : Nat) (op : Operation) (s : Sender (Recorded σ)) :
    op.run rounds (s.map Recorded.inner) =
      (op.run rounds s).map (·.mapState (map Recorded.inner)) := by
  cases op with
  | send p messages => exact send_map Recorded.forgets_inner rounds p messages s
  | close =>
    simp only [run, close_map]
    cases s.close <;> rfl

theorem runAll_map (rounds : Nat) (ops : List Operation) (s : Sender (Recorded σ)) :
    runAll rounds ops (s.map Recorded.inner) =
      (runAll rounds ops s).map fun y => (y.1, y.2.map Recorded.inner) := by
  induction ops generalizing s with
  | nil => rfl
  | cons op ops ih =>
    simp only [runAll, run_map]
    cases op.run rounds s with
    | none => rfl
    | some x => cases x <;> simp [Outcome.mapState, Outcome.state, answer?, ih, Function.comp_def]

theorem history_map (connectRounds rounds : Nat) (policy : RetryPolicy) (p : Patience)
    (ops : List Operation) (t : Recorded σ) :
    history connectRounds rounds policy p ops t.inner =
      (history connectRounds rounds policy p ops t).map fun y => (y.1, y.2.map Recorded.inner) := by
  have hconnect := establish_map Recorded.forgets_inner p connectRounds 0 {}
    { transport := t, policy }
  unfold history
  rw [show ({ transport := t.inner, policy } : Sender σ) =
    ({ transport := t, policy } : Sender (Recorded σ)).map Recorded.inner from rfl, hconnect]
  cases establish p connectRounds 0 {} { transport := t, policy } with
  | none => rfl
  | some x => cases x <;> exact runAll_map rounds ops _

end Operation

end Sender

end EventRelay.Delivery
