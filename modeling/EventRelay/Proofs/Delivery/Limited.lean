import EventRelay.Delivery.Operation
import EventRelay.Proofs.Delivery.Observed

/-!
# Runs that go on for ever

A sender without a bound on its attempts may never be done. The beginning of such a run is what the
sender does over a transport that answers so many connects and commits and then falls silent
(`Limited`). Over that transport nothing goes on for ever (`exists_history_limited`), since each
round takes one of the answers away. So what holds of all runs that end, over any transport, holds
of every beginning of those that do not. A run that ends before the silence is one over the
transport itself (`Limited.mimics_inner`), so the others are cut off.
-/

namespace EventRelay.Delivery

/-- A transport that answers so many more connects and commits. -/
structure Limited (σ : Type) where
  inner : σ
  left : Nat

namespace Limited

variable {σ : Type}

/-- A call that is answered if there are answers left. -/
def limit {α : Type} : Nat → Call α σ → Call α (Limited σ)
  | n + 1, c => c.mapState (⟨·, n⟩)
  | 0, .returns _ _ _ left => .hangs ⟨left, 0⟩
  | 0, .hangs left => .hangs ⟨left, 0⟩

instance [Transport σ] : Transport (Limited σ) where
  target t := Transport.target t.inner
  connect t := limit t.left (Transport.connect t.inner)
  commit pending t := limit t.left (Transport.commit pending t.inner)
  disconnect t := (Transport.disconnect t.inner).mapState (⟨·, t.left⟩)
  tearDown t := ⟨Transport.tearDown t.inner, t.left⟩

theorem await_limit {α : Type} (p : Patience) (w : Wait) (n : Nat) (c : Call α σ) :
    (∃ w' a t, p.await w (limit n c) = .returned w' a t ∧ t.left < n) ∨
      ∃ t, p.await w (limit n c) = .abandoned t ∧ t.left ≤ n := by
  cases n with
  | zero => cases c <;> exact .inr ⟨_, rfl, Nat.le_refl 0⟩
  | succ n =>
    cases c with
    | returns after answer state left =>
      simp only [limit, Call.mapState, Patience.await]
      split
      · exact .inl ⟨_, _, _, rfl, Nat.lt_succ_self n⟩
      · exact .inr ⟨_, rfl, Nat.le_succ n⟩
    | hangs left => exact .inr ⟨_, rfl, Nat.le_succ n⟩

variable [Transport σ]

theorem await_connect (p : Patience) (w : Wait) (t : Limited σ) :
    (∃ w' ok t', p.await w (Transport.connect t) = .returned w' ok t' ∧ t'.left < t.left) ∨
      ∃ t', p.await w (Transport.connect t) = .abandoned t' ∧ t'.left ≤ t.left :=
  await_limit p w t.left (Transport.connect t.inner)

theorem await_commit (p : Patience) (w : Wait) (pending : List (Nat × Bytes)) (t : Limited σ) :
    (∃ w' commit t', p.await w (Transport.commit pending t) = .returned w' commit t' ∧
        t'.left < t.left) ∨
      ∃ t', p.await w (Transport.commit pending t) = .abandoned t' ∧ t'.left ≤ t.left :=
  await_limit p w t.left (Transport.commit pending t.inner)

end Limited

namespace Sender

variable {σ : Type}

/-- An operation comes to an end, with no more answers to come than so many. -/
def Ends (n : Nat) (o : Option (Result (Limited σ))) : Prop :=
  ∃ x, o = some x ∧ x.state.transport.left ≤ n

theorem Ends.mono {n n' : Nat} {o : Option (Result (Limited σ))} (h : Ends n o) (hle : n ≤ n') :
    Ends n' o := by
  obtain ⟨x, hx, hleft⟩ := h
  exact ⟨x, hx, Nat.le_trans hleft hle⟩

variable [Transport σ] {s : Sender (Limited σ)} {rounds : Nat}

theorem ends_establish (p : Patience) (h : s.transport.left < rounds) (attempts : Nat) (w : Wait) :
    Ends s.transport.left (s.establish p rounds attempts w) := by
  induction rounds generalizing attempts w s with
  | zero => exact absurd h (Nat.not_lt_zero _)
  | succ rounds ih =>
    unfold establish
    obtain ⟨w', ok, t, hawait, hless⟩ | ⟨t, hawait, hle⟩ := Limited.await_connect p w s.transport
    all_goals rw [hawait]
    · cases ok with
      | true => exact ⟨_, rfl, Nat.le_of_lt hless⟩
      | false =>
        have hleft : (reset { s with transport := t }).transport.left = t.left := rfl
        dsimp only
        split
        · exact ⟨_, rfl, Nat.le_of_lt hless⟩
        · split
          · exact ⟨_, rfl, Nat.le_of_lt hless⟩
          · exact (ih (by omega) _ _).mono (by omega)
    · exact ⟨_, rfl, hle⟩

theorem ends_ready (p : Patience) (h : s.transport.left < rounds) (w : Wait) :
    Ends s.transport.left (s.ready p rounds w) := by
  unfold ready
  split
  · exact ends_establish p h 0 w
  · exact ⟨_, rfl, Nat.le_refl _⟩

theorem ends_deliver {connectRounds : Nat} (p : Patience)
    (hconnect : s.transport.left < connectRounds) (h : s.transport.left < rounds)
    (attempts : Nat) (w : Wait) (batch : Batch) :
    Ends s.transport.left (s.deliver p connectRounds rounds attempts w batch) := by
  induction rounds generalizing attempts w batch s with
  | zero => exact absurd h (Nat.not_lt_zero _)
  | succ rounds ih =>
    obtain ⟨x, hready, hx⟩ := ends_ready p hconnect w
    unfold deliver
    rw [hready]
    cases x with
    | abandoned s₁ => exact ⟨_, rfl, hx⟩
    | returned w₁ result s₁ =>
      change s₁.transport.left ≤ s.transport.left at hx
      cases result with
      | error e => exact ⟨_, rfl, hx⟩
      | ok u =>
        dsimp only
        obtain ⟨w', commit, t, hawait, hless⟩ | ⟨t, hawait, hle⟩ :=
          Limited.await_commit p w₁ batch.pending s₁.transport
        all_goals rw [hawait]
        · have hleft : (reset { s₁ with transport := t }).transport.left = t.left := rfl
          have hle : t.left ≤ s.transport.left := by omega
          dsimp only
          split
          · exact ⟨_, rfl, hle⟩
          · split
            · exact ⟨_, rfl, hle⟩
            · split
              · exact ⟨_, rfl, hle⟩
              · exact (ih (by omega) (by omega) _ _ _).mono (by omega)
        · exact ⟨_, rfl, Nat.le_trans hle hx⟩

theorem left_recover (s : Sender (Limited σ)) : s.recover.transport.left = s.transport.left := by
  unfold recover
  split <;> rfl

theorem ends_send (p : Patience) (h : s.transport.left < rounds) (messages : List Bytes) :
    Ends s.transport.left (s.send rounds p messages) := by
  unfold send
  split
  · exact ⟨_, rfl, Nat.le_refl _⟩
  · rw [← left_recover] at h ⊢
    split
    · exact ⟨_, rfl, Nat.le_refl _⟩
    · exact ends_deliver p h h 0 {} (.ofMessages messages)

namespace Operation

theorem exists_runAll_limited {ops : List Operation} (h : s.transport.left < rounds)
    (hops : .close ∉ ops) : ∃ y, runAll rounds ops s = some y := by
  induction ops generalizing s with
  | nil => exact ⟨_, rfl⟩
  | cons op ops ih =>
    obtain ⟨hop, hlater⟩ := not_or.1 (mt List.mem_cons.2 hops)
    cases op with
    | close => exact absurd rfl hop
    | send p messages =>
      obtain ⟨x, hx, hleft⟩ := ends_send p h messages
      obtain ⟨y, hy⟩ := ih (Nat.lt_of_le_of_lt hleft h) hlater
      refine ⟨(answer? x :: y.1, y.2), ?_⟩
      simp only [runAll, run, hx, hy, Option.map_some]

/-- Over a transport that answers so many calls, a history of connecting and sending comes to an
end within more rounds than that. -/
theorem exists_history_limited {n connectRounds : Nat} {ops : List Operation}
    (policy : RetryPolicy) (p : Patience) (t : σ) (hconnect : n < connectRounds) (h : n < rounds)
    (hops : .close ∉ ops) :
    ∃ y, history connectRounds rounds policy p ops (⟨t, n⟩ : Limited σ) = some y := by
  obtain ⟨x, hx, hleft⟩ := ends_establish
    (s := { transport := (⟨t, n⟩ : Limited σ), policy }) p hconnect 0 {}
  obtain ⟨y, hy⟩ := exists_runAll_limited (Nat.lt_of_le_of_lt hleft h) hops
  exact ⟨y, Option.bind_eq_some_iff.2 ⟨x, hx, hy⟩⟩

end Operation

end Sender

end EventRelay.Delivery
