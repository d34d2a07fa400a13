import EventRelay.Proofs.Ack.Statuses
import EventRelay.Proofs.Ack.Step

/-!
# Acknowledged ids

An id becomes acknowledged by being marked and in no other way (`acked_of_acked_run`). A query that
reports it as acknowledged uses that up: the id was acknowledged before and does not even wait
afterwards (`acked_of_report_true`).
-/

namespace EventRelay.Ack

namespace Registry

variable {r : Registry} {token channel : String} {id : Nat}

/-- Whether an id waits and is acknowledged. -/
def acked (token channel : String) (id : Nat) (r : Registry) : Bool :=
  (r.waiting? token channel id).any Ack.acknowledged

theorem acked_iff :
    r.acked token channel id = true ↔
      ∃ a, r.waiting? token channel id = some a ∧ a.acknowledged = true :=
  Option.any_eq_true ..

theorem isAcknowledged_eq_acked :
    (r.isAcknowledged token channel id).1 = r.acked token channel id := by
  rw [isAcknowledged_answer, acked]
  cases r.waiting? token channel id <;> rfl

/-- An id that a query reports as acknowledged was so before, and is forgotten by the query. -/
theorem acked_of_report_true {query : Json} {statuses : Statuses}
    (h : (r.report token channel query).1 = .ok statuses) (hid : statuses.get? id = some true) :
    r.acked token channel id = true ∧
      (r.report token channel query).2.acked token channel id = false := by
  cases hq : queriedIds? query with
  | none =>
    rw [report, hq] at h
    cases h
    rw [Statuses.get?_empty] at hid
    cases hid
  | some named =>
    cases named with
    | error e =>
      rw [report, hq] at h
      cases h
    | ok ids =>
      by_cases hs : r.lastAccess? token = none
      · rw [report_of_absent hq hs] at h
        cases h
      have hanswer := h
      rw [report_of_live hq hs, onExisting_answer] at hanswer
      cases hc : r.channel? token channel with
      | none => rw [hc] at hanswer; cases hanswer
      | some c =>
        rw [hc] at hanswer
        cases hanswer
        rcases Channel.status_of_report_true Statuses.wellFormed_empty hid with
          ⟨-, hnone⟩ | ⟨hmem, hstatus⟩
        · rw [Statuses.get?_empty] at hnone
          cases hnone
        · refine ⟨?_, by rw [acked, waiting?_report hq, if_pos ⟨rfl, rfl⟩, if_pos hmem]; rfl⟩
          rw [acked, waiting?, hc]
          unfold Channel.status at hstatus
          cases ha : c.acks[id]? with
          | none => simp [ha] at hstatus
          | some a => simpa [ha] using hstatus

theorem waiting?_of_waiting?_sweep {a : Ack} (h : r.sweep.2.waiting? token channel id = some a) :
    r.waiting? token channel id = some a := by
  by_cases hrecent : ∃ used, r.lastAccess? token = some used ∧ r.Recent used
  · obtain ⟨used, hused, hrecent⟩ := hrecent
    rw [waiting?_sweep_of_recent hused hrecent] at h
    exact (Option.filter_eq_some_iff.1 h).1
  · rw [waiting?_sweep_of_idle fun used hused hrecent' => hrecent ⟨used, hused, hrecent'⟩] at h
    cases h

end Registry

namespace Operation

open Registry

variable {r : Registry} {token channel : String} {id : Nat}

/-- Only a mark makes an id acknowledged. -/
theorem acked_of_acked_run (op : Operation) (hmark : ¬ (op.moment r).Marks token channel id)
    (h : (op.run r).2.acked token channel id = true) : r.acked token channel id = true := by
  by_cases hreg : (op.moment r).Registers token channel id
  · rw [acked, waiting?_run_of_registers hreg] at h
    cases h
  by_cases hrem : (op.moment r).Removes token channel id
  · rw [acked, waiting?_run_of_removes hrem] at h
    cases h
  by_cases hsweep : op = .sweep
  · subst hsweep
    rw [acked_iff] at h ⊢
    obtain ⟨a, ha, hack⟩ := h
    exact ⟨a, waiting?_of_waiting?_sweep ha, hack⟩
  · rwa [acked, waiting?_run_of_other hreg hrem hmark hsweep] at h

end Operation

end EventRelay.Ack
