import EventRelay.Delivery.Sender

/-!
# One round of a sender

A patient sender over a transport that answers: what one round of `establish` and one of `deliver`
come to, for each answer that the transport can give. A round ends the loop or leaves the rest of
the rounds to a sender without a connection, after one more pause.
-/

namespace EventRelay.Delivery.Sender

variable {σ : Type} [Transport σ] {s : Sender σ} {t left : σ} {after attempts : Nat}

/-! ## Connecting -/

theorem establish_connects (h : Transport.connect s.transport = .returns after true t left)
    (rounds attempts : Nat) (w : Wait) :
    s.establish .forever (rounds + 1) attempts w =
      some (.returned { w with elapsed := w.elapsed + after } (.ok ())
        { s with transport := t, state := .connected }) := by
  simp only [establish, h, Patience.await, Patience.allows, if_true]

section Fails

variable (h : Transport.connect s.transport = .returns after false t left)
include h

theorem establish_retries (hmore : s.policy.exhausted (attempts + 1) = false) (rounds : Nat)
    (w : Wait) :
    s.establish .forever (rounds + 1) attempts w =
      (reset { s with transport := t }).establish .forever rounds (attempts + 1)
        ⟨w.sleeps + 1, w.elapsed + after + s.policy.interval⟩ := by
  simp only [establish, h, Patience.await, Patience.allows, Patience.sleep, reset, hmore, if_true,
    Bool.false_eq_true, if_false]

theorem establish_exhausted (hlast : s.policy.exhausted (attempts + 1) = true) (rounds : Nat)
    (w : Wait) :
    s.establish .forever (rounds + 1) attempts w =
      some (.returned { w with elapsed := w.elapsed + after }
        (.error (.retriesExhausted (attempts + 1))) (reset { s with transport := t })) := by
  simp only [establish, h, Patience.await, Patience.allows, reset, hlast, if_true]

end Fails

/-! ## Committing -/

section Commits

variable {s₁ : Sender σ} {connectRounds : Nat} {w w₁ : Wait} {batch : Batch} {commit : Commit}

theorem deliver_of_not_ready {fault : Fault}
    (hready : s.ready .forever connectRounds w = some (.returned w₁ (.error fault) s₁))
    (rounds attempts : Nat) :
    s.deliver .forever connectRounds (rounds + 1) attempts w batch =
      some (.returned w₁ (.error fault) s₁) := by
  simp only [deliver, hready]

variable (hready : s.ready .forever connectRounds w = some (.returned w₁ (.ok ()) s₁))
  (hcommit : Transport.commit batch.pending s₁.transport = .returns after commit t left)
include hready hcommit

theorem deliver_verified (h : (batch.confirmAll commit.confirmed).complete = true)
    (rounds attempts : Nat) :
    s.deliver .forever connectRounds (rounds + 1) attempts w batch =
      some (.returned { w₁ with elapsed := w₁.elapsed + after } (.ok ())
        { s₁ with transport := t, state := .connected }) := by
  simp only [deliver, hready, hcommit, Patience.await, Patience.allows, h, if_true]

section Fails

variable (h : (batch.confirmAll commit.confirmed).complete = false)
include h

theorem deliver_retries (hmore : s₁.policy.exhausted (attempts + 1) = false) (rounds : Nat) :
    s.deliver .forever connectRounds (rounds + 1) attempts w batch =
      (reset { s₁ with transport := t }).deliver .forever connectRounds rounds (attempts + 1)
        ⟨w₁.sleeps + 1, w₁.elapsed + after + s₁.policy.interval⟩
        (batch.confirmAll commit.confirmed) := by
  simp only [deliver, hready, hcommit, Patience.await, Patience.allows, Patience.sleep, reset, h,
    hmore, if_true, Bool.false_eq_true, if_false]

theorem deliver_exhausted (hlast : s₁.policy.exhausted (attempts + 1) = true) (rounds : Nat) :
    s.deliver .forever connectRounds (rounds + 1) attempts w batch =
      some (.returned { w₁ with elapsed := w₁.elapsed + after }
        (.error (.retriesExhausted (attempts + 1))) (reset { s₁ with transport := t })) := by
  simp only [deliver, hready, hcommit, Patience.await, Patience.allows, reset, h, hlast, if_true,
    Bool.false_eq_true, if_false]

end Fails

end Commits

end EventRelay.Delivery.Sender
