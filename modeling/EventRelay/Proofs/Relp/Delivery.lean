import EventRelay.Proofs.Delivery.Confirmation
import EventRelay.Proofs.Relp.Commit
import EventRelay.Relp.Collector

/-!
# Messages that were sent have arrived

A reliable sender over a connection to a collector, whatever the collector does and whatever was
done with the sender before: when a send ends well, every message of it went out in a frame and was
answered with success (`answered_of_send_ok`).
-/

namespace EventRelay.Relp

open Delivery

variable {π : Type} [Peer π]

/-- A round of a sender is a commit of its connection. -/
theorem commit_of_faithful {messages : List Bytes} {r : Round (Connection (Socket π))}
    (h : r.Faithful messages) :
    ∃ result, r.before.commit r.offered = (result, r.commit.confirmed, r.after) := by
  obtain ⟨after, left, hcommit⟩ := h.commits
  change Connection.call (r.before.commit r.offered).1 _ _ _ = _ at hcommit
  unfold Connection.call at hcommit
  refine ⟨(r.before.commit r.offered).1, ?_⟩
  split at hcommit
  · obtain ⟨-, hanswer, hstate, -⟩ := Call.returns.inj hcommit
    exact Prod.ext rfl (Prod.ext (congrArg Commit.confirmed hanswer) hstate)
  · obtain ⟨-, hanswer, hstate, -⟩ := Call.returns.inj hcommit
    exact Prod.ext rfl (Prod.ext (congrArg Commit.confirmed hanswer) hstate)

/-- No send reports a delivery that did not happen: each message was confirmed in one round of the
send, where its frame was written on the connection and the first answer to that frame which was
read afterwards reports success, and no later round carries the message. -/
theorem answered_of_send_ok {rounds : Nat} {p : Patience} {messages : List Bytes} {w : Wait}
    {s s' : Sender (Connection (Socket π))}
    (h : s.send rounds p messages = some (.returned w (.ok ()) s')) :
    ∃ s₁ : Sender (Observed (Connection (Socket π))),
      s.observed.send rounds p messages = some (.returned w (.ok ()) s₁) ∧
      s₁.map Observed.inner = s' ∧
      (∀ r ∈ s₁.transport.rounds, r.Faithful messages) ∧
      ∀ (i : Nat) (m : Bytes), messages[i]? = some m →
        ∃ later r earlier x arrival heard, s₁.transport.rounds = later ++ r :: earlier ∧
          Answered i m r.offered r.before r.after x arrival heard ∧
          ∀ r' ∈ later, ∀ m', (i, m') ∉ r'.offered := by
  obtain ⟨s₁, hsend, hs₁⟩ := Sender.exists_observed_send h
  obtain ⟨hfaithful, hconfirmed⟩ := Sender.confirmed_of_send_ok hsend
  refine ⟨s₁, hsend, hs₁, hfaithful, ?_⟩
  intro i m hi
  obtain ⟨later, r, earlier, hrounds, -, hmem, hlater⟩ := hconfirmed i m hi
  have hr : r.Faithful messages := hfaithful r (by rw [hrounds]; simp)
  obtain ⟨result, hcommit⟩ := commit_of_faithful hr
  obtain ⟨m', x, arrival, heard, hanswered⟩ := answered_of_commit hcommit hmem
  obtain rfl : m' = m := by
    obtain ⟨k, hk, -⟩ := hanswered.placed
    have hmessage := hr.offers i m' (List.mem_of_getElem? hk)
    exact Option.some.inj (hmessage.symm.trans hi)
  exact ⟨later, r, earlier, x, arrival, heard, hrounds, hanswered, hlater⟩

/-- A sender that is not connected yet, to a collector that rejects a message before it accepts it.
-/
def hesitant : Sender (Connection (Socket Collector)) where
  transport :=
    { host := "localhost"
      port := 2514
      wire :=
        { peer :=
            { scripts := [[⟨1, Text.Utf8.encode "1 rsp 6 200 OK\n", false, false⟩,
                ⟨1, Text.Utf8.encode "2 rsp 8 500 busy\n", false, false⟩]] } } }
  policy := {}

theorem answered_of_send_ok_hesitant :
    ∃ w s' s₁, hesitant.send 3 .forever [Text.Utf8.encode "m"] = some (.returned w (.ok ()) s') ∧
      hesitant.observed.send 3 .forever [Text.Utf8.encode "m"] =
        some (.returned w (.ok ()) s₁) ∧
      s₁.map Observed.inner = s' ∧
      ∃ later r earlier x arrival heard, s₁.transport.rounds = later ++ r :: earlier ∧
        Answered 0 (Text.Utf8.encode "m") r.offered r.before r.after x arrival heard ∧
        ∀ r' ∈ later, ∀ m', (0, m') ∉ r'.offered := by
  have hok : (hesitant.send 3 .forever [Text.Utf8.encode "m"]).any (fun
      | .returned _ (.ok _) _ => true
      | _ => false) = true := by decide +kernel
  obtain ⟨x, hx, hreturned⟩ := (Option.any_eq_true ..).1 hok
  cases x with
  | abandoned s' => cases hreturned
  | returned w result s' =>
    cases result with
    | error e => cases hreturned
    | ok u =>
      obtain ⟨s₁, hsend, hs₁, -, hanswered⟩ := answered_of_send_ok hx
      exact ⟨w, s', s₁, hx, hsend, hs₁, hanswered 0 _ rfl⟩

end EventRelay.Relp
