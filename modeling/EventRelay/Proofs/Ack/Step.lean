import EventRelay.Proofs.Ack.Lookup

/-!
# One step of a registry

What one operation does to the last use of a token and to one id, for operations as data. An
operation registers the id, is done with it, marks it, is a sweep, or leaves it alone; and it counts
as use of the token, is a sweep, or leaves the last use alone.

A `Moment` is an operation that was done, with its time and its answer: what somebody sees who
watches a registry from outside.
-/

namespace EventRelay.Ack

/-- An operation that was done, with its time and its answer. -/
structure Moment where
  time : Nat
  operation : Operation
  answer : Answer

namespace Operation

/-- The moment at which an operation is done to a registry. -/
def moment (op : Operation) (r : Registry) : Moment := ⟨r.now, op, (op.run r).1⟩

@[simp] theorem moment_time (op : Operation) (r : Registry) : (op.moment r).time = r.now := rfl

@[simp] theorem moment_operation (op : Operation) (r : Registry) :
    (op.moment r).operation = op := rfl

@[simp] theorem moment_answer (op : Operation) (r : Registry) :
    (op.moment r).answer = (op.run r).1 := rfl

/-- Whether an operation counts as use of a token. A query does only if it names ids and nothing but
ids. -/
def uses (token : String) : Operation → Bool
  | .report t _ query => t = token && (Registry.queriedIds? query).any Except.isOk
  | op => op.token? = some token

end Operation

namespace Moment

/-- The id is registered, and not refused. -/
def Registers (token channel : String) (id : Nat) (m : Moment) : Prop :=
  m.operation = .registerAck token channel id ∧ m.answer = .done

/-- The id is marked, whether it waits or not. -/
def Marks (token channel : String) (id : Nat) (m : Moment) : Prop :=
  m.operation = .markAcknowledged token channel id

/-- The id is named by a query that is answered with these statuses. -/
def Reports (token channel : String) (id : Nat) (statuses : Statuses) (m : Moment) : Prop :=
  ∃ query ids, m.operation = .report token channel query ∧
    Registry.queriedIds? query = some (.ok ids) ∧ (id : Int) ∈ ids ∧ m.answer = .statuses statuses

/-- The id is deleted, or named by a query that is answered. -/
def Removes (token channel : String) (id : Nat) (m : Moment) : Prop :=
  m.operation = .deleteAck token channel id ∨ ∃ statuses, m.Reports token channel id statuses

end Moment

namespace Registry

variable {r : Registry} {token channel : String} {id : Nat}

theorem sessions_isNone_iff : (r.sessions[token]?).isNone ↔ r.lastAccess? token = none := by
  simp [lastAccess?]

theorem report_of_live {query : Json} {ids : List Int} (h : queriedIds? query = some (.ok ids))
    (hs : r.lastAccess? token ≠ none) :
    r.report token channel query =
      r.onExisting token channel (.error .channelNotFound) fun c =>
        (.ok (c.report ids .empty).1, (c.report ids .empty).2) := by
  simp only [report, h]
  rw [if_neg (by rwa [sessions_isNone_iff])]

theorem report_of_absent {query : Json} {ids : List Int} (h : queriedIds? query = some (.ok ids))
    (hs : r.lastAccess? token = none) :
    r.report token channel query = (.error .sessionNotFound, r) := by
  simp only [report, h]
  rw [if_pos (by rwa [sessions_isNone_iff])]

/-- A query that does not count as use changes nothing. -/
theorem report_of_unused {query : Json}
    (h : (queriedIds? query).any Except.isOk = false) : (r.report token channel query).2 = r := by
  unfold report
  split
  · rfl
  · rfl
  · next ids hq => rw [hq] at h; cases h

/-- A query forgets the ids that it names, on its own channel only. -/
theorem waiting?_report {query : Json} {ids : List Int} (h : queriedIds? query = some (.ok ids))
    (token' channel' : String) :
    (r.report token channel query).2.waiting? token' channel' id =
      if token = token' ∧ channel = channel' then
        if (id : Int) ∈ ids then none else r.waiting? token' channel' id
      else r.waiting? token' channel' id := by
  by_cases hs : r.lastAccess? token = none
  · rw [report_of_absent h hs]
    have hnone : r.waiting? token channel id = none := by
      cases he : r.waiting? token channel id with
      | none => rfl
      | some a =>
        obtain ⟨used, hu⟩ := lastAccess?_of_waiting? he
        rw [hs] at hu
        cases hu
    split
    · next heq =>
      obtain ⟨rfl, rfl⟩ := heq
      simp [hnone]
    · rfl
  · rw [report_of_live h hs]
    refine waiting?_onExisting (g := fun x => if (id : Int) ∈ ids then none else x) (by simp) ?_ _ _
    exact fun c => Channel.acks_report ids .empty c id

theorem report_ok_of_waiting? {query : Json} {ids : List Int}
    (h : queriedIds? query = some (.ok ids)) {a : Ack} (he : r.waiting? token channel id = some a) :
    ∃ c, r.channel? token channel = some c ∧
      (r.report token channel query).1 = .ok (c.report ids .empty).1 := by
  obtain ⟨used, hu⟩ := lastAccess?_of_waiting? he
  obtain ⟨c, hc, -⟩ := Option.bind_eq_some_iff.1 he
  refine ⟨c, hc, ?_⟩
  rw [report_of_live h (by rw [hu]; exact Option.some_ne_none used), onExisting_answer, hc]
  rfl

theorem waiting?_registerAck (h : (r.registerAck token channel id).1 = .ok ())
    (token' channel' : String) (id' : Nat) :
    (r.registerAck token channel id).2.waiting? token' channel' id' =
      if token = token' ∧ channel = channel' ∧ id = id' then some ⟨id, false, r.now⟩
      else r.waiting? token' channel' id' := by
  unfold registerAck at h ⊢
  cases hs : r.session token with
  | error e => rw [onChannel_of_error hs] at h; cases h
  | ok s =>
    rw [onChannel_of_ok hs] at h
    unfold waiting?
    rw [channel?_onChannel hs]
    by_cases heq : token = token' ∧ channel = channel'
    · obtain ⟨rfl, rfl⟩ := heq
      simp only [true_and, if_true, Option.bind_some, Channel.acks_register_ok h,
        Table.getElem?_insert_eq]
      split
      · rfl
      · cases r.channel? token channel <;> simp
    · rw [if_neg heq, if_neg (fun h' => heq ⟨h'.1, h'.2.1⟩)]

theorem waiting?_registerAck_of_error {e : Refusal}
    (h : (r.registerAck token channel id).1 = .error e) (token' channel' : String) (id' : Nat) :
    (r.registerAck token channel id).2.waiting? token' channel' id' =
      r.waiting? token' channel' id' := by
  unfold registerAck at h ⊢
  cases hs : r.session token with
  | error e => rw [onChannel_of_error hs]
  | ok s =>
    rw [onChannel_of_ok hs] at h
    unfold waiting?
    rw [channel?_onChannel hs, Channel.register_error h]
    split
    · next heq =>
      obtain ⟨rfl, rfl⟩ := heq
      cases r.channel? token channel <;> simp
    · rfl

theorem waiting?_markAcknowledged (token' channel' : String) (id' : Nat) :
    (r.markAcknowledged token channel id).2.waiting? token' channel' id' =
      if token = token' ∧ channel = channel' ∧ id = id' then
        (r.waiting? token' channel' id').map ({ · with acknowledged := true })
      else r.waiting? token' channel' id' := by
  unfold markAcknowledged
  rw [waiting?_onExisting
    (g := fun x => if id = id' then x.map ({ · with acknowledged := true }) else x)
    (by simp) fun c => Channel.acks_acknowledge id id' c]
  by_cases ht : token = token' <;> by_cases hc : channel = channel' <;> simp [ht, hc]

theorem waiting?_deleteAck (token' channel' : String) (id' : Nat) :
    (r.deleteAck token channel id).2.waiting? token' channel' id' =
      if token = token' ∧ channel = channel' ∧ id = id' then none
      else r.waiting? token' channel' id' := by
  unfold deleteAck
  rw [waiting?_onExisting (g := fun x => if id = id' then none else x) (by simp)
    fun c => Channel.acks_forget id id' c]
  by_cases ht : token = token' <;> by_cases hc : channel = channel' <;> simp [ht, hc]

theorem deleteAck_answer :
    (r.deleteAck token channel id).1 = (r.waiting? token channel id).isSome := by
  unfold deleteAck waiting?
  rw [onExisting_answer]
  cases r.channel? token channel <;> rfl

theorem waiting?_onExisting_of_id {α : Type} {absent : α} (g : Channel → α)
    (token' channel' : String) :
    (r.onExisting token channel absent fun c => (g c, c)).2.waiting? token' channel' id =
      r.waiting? token' channel' id := by
  rw [waiting?_onExisting (g := fun x => x) rfl fun c => rfl, ite_self]

theorem waiting?_ensureSession (token' channel' : String) :
    (r.ensureSession token).2.waiting? token' channel' id = r.waiting? token' channel' id := by
  unfold waiting?
  rw [channel?_ensureSession]

end Registry

/-! ## What a step does to an id -/

namespace Operation

open Registry

variable {op : Operation} {r : Registry} {token channel : String} {id : Nat}

theorem answer_eq_done_iff {α : Type} {x : Except Refusal α} :
    Answer.ofExcept (fun _ => .done) x = .done ↔ ∃ a, x = .ok a := by
  cases x <;> simp [Answer.ofExcept]

theorem answer_eq_statuses_iff {x : Except Refusal Statuses} {s : Statuses} :
    Answer.ofExcept .statuses x = .statuses s ↔ x = .ok s := by
  cases x <;> simp [Answer.ofExcept]

theorem waiting?_run_of_registers (h : (op.moment r).Registers token channel id) :
    (op.run r).2.waiting? token channel id = some ⟨id, false, r.now⟩ := by
  obtain ⟨hop, hanswer⟩ := h
  change op = _ at hop
  subst hop
  obtain ⟨⟨⟩, hok⟩ := answer_eq_done_iff.1 hanswer
  rw [run, waiting?_registerAck hok, if_pos ⟨rfl, rfl, rfl⟩]

theorem waiting?_run_of_removes (h : (op.moment r).Removes token channel id) :
    (op.run r).2.waiting? token channel id = none := by
  rcases h with hop | ⟨s, query, ids, hop, hids, hmem, -⟩ <;> change op = _ at hop <;> subst hop
  · rw [run, waiting?_deleteAck, if_pos ⟨rfl, rfl, rfl⟩]
  · rw [run, waiting?_report hids, if_pos ⟨rfl, rfl⟩, if_pos hmem]

theorem waiting?_run_of_marks (h : (op.moment r).Marks token channel id) :
    (op.run r).2.waiting? token channel id =
      (r.waiting? token channel id).map ({ · with acknowledged := true }) := by
  change op = _ at h
  subst h
  rw [run, waiting?_markAcknowledged, if_pos ⟨rfl, rfl, rfl⟩]

/-- Whatever neither registers the id, is done with it, marks it, nor is a sweep leaves it alone. -/
theorem waiting?_run_of_other (hreg : ¬ (op.moment r).Registers token channel id)
    (hrem : ¬ (op.moment r).Removes token channel id)
    (hmark : ¬ (op.moment r).Marks token channel id) (hsweep : op ≠ .sweep) :
    (op.run r).2.waiting? token channel id = r.waiting? token channel id := by
  cases op with
  | ensureSession t => exact waiting?_ensureSession token channel
  | ensureChannel t c => exact waiting?_onChannel_of_acks (fun _ => rfl) token channel id
  | nextAckId t c => exact waiting?_onChannel_of_acks (fun _ => rfl) token channel id
  | registerAck t c i =>
    cases hx : (r.registerAck t c i).1 with
    | error e => rw [run, waiting?_registerAck_of_error hx]
    | ok u =>
      rw [run, waiting?_registerAck hx, if_neg]
      rintro ⟨rfl, rfl, rfl⟩
      exact hreg ⟨rfl, answer_eq_done_iff.2 ⟨u, hx⟩⟩
  | markAcknowledged t c i =>
    rw [run, waiting?_markAcknowledged, if_neg]
    rintro ⟨rfl, rfl, rfl⟩
    exact hmark rfl
  | isAcknowledged t c i => exact waiting?_onExisting_of_id _ token channel
  | deleteAck t c i =>
    rw [run, waiting?_deleteAck, if_neg]
    rintro ⟨rfl, rfl, rfl⟩
    exact hrem (.inl rfl)
  | listAcks t c => exact waiting?_onExisting_of_id _ token channel
  | ackCount t c => exact waiting?_onExisting_of_id _ token channel
  | report t c query =>
    cases hq : queriedIds? query with
    | none => rw [run, report_of_unused (by rw [hq]; rfl)]
    | some x =>
      cases x with
      | error e => rw [run, report_of_unused (by rw [hq]; rfl)]
      | ok ids =>
        rw [run, waiting?_report hq]
        split
        · next heq =>
          obtain ⟨rfl, rfl⟩ := heq
          split
          · next hmem =>
            -- the id is named, so either it does not wait or the query is answered
            cases he : r.waiting? t c id with
            | none => rfl
            | some a =>
              obtain ⟨ch, -, hok⟩ := report_ok_of_waiting? hq he
              exact absurd (.inr ⟨_, query, ids, rfl, hq, hmem, answer_eq_statuses_iff.2 hok⟩) hrem
          · rfl
        · rfl
  | sweep => exact absurd rfl hsweep
  | advance ms => rfl

/-! ## What a step does to the last use of a token -/

/-- Whatever a step is, it uses a token, sweeps, lets time pass or changes nothing. -/
theorem run_cases (op : Operation) (r : Registry) :
    (∃ t, op.token? = some t ∧ op.uses t = true ∧ UsedBy t r (op.run r).2) ∨ op = .sweep ∨
      (∃ ms, op = .advance ms) ∨ (op.run r).2 = r ∧ ∀ t, op.uses t = false := by
  cases op with
  | report t c query =>
    cases hq : (queriedIds? query).any Except.isOk with
    | false => exact .inr (.inr (.inr ⟨report_of_unused hq, by simp [uses, hq]⟩))
    | true =>
      refine .inl ⟨t, rfl, by simp [uses, hq], ?_⟩
      obtain ⟨x, hx, hok⟩ := (Option.any_eq_true ..).1 hq
      cases x with
      | error e => cases hok
      | ok ids =>
        by_cases hs : r.lastAccess? t = none
        · exact .inr ⟨by rw [run, report_of_absent hx hs], hs⟩
        · rw [run, report_of_live hx hs]
          exact usedBy_onExisting
  | ensureSession t => exact .inl ⟨t, rfl, by simp [uses, token?], usedBy_ensureSession⟩
  | ensureChannel t c => exact .inl ⟨t, rfl, by simp [uses, token?], usedBy_onChannel⟩
  | nextAckId t c => exact .inl ⟨t, rfl, by simp [uses, token?], usedBy_onChannel⟩
  | registerAck t c i => exact .inl ⟨t, rfl, by simp [uses, token?], usedBy_onChannel⟩
  | markAcknowledged t c i =>
    exact .inl ⟨t, rfl, by simp [uses, token?], usedBy_onExisting (α := Bool)⟩
  | isAcknowledged t c i =>
    exact .inl ⟨t, rfl, by simp [uses, token?], usedBy_onExisting (α := Bool)⟩
  | deleteAck t c i => exact .inl ⟨t, rfl, by simp [uses, token?], usedBy_onExisting (α := Bool)⟩
  | listAcks t c =>
    exact .inl ⟨t, rfl, by simp [uses, token?], usedBy_onExisting (α := List (Nat × Ack))⟩
  | ackCount t c => exact .inl ⟨t, rfl, by simp [uses, token?], usedBy_onExisting (α := Nat)⟩
  | sweep => exact .inr (.inl rfl)
  | advance ms => exact .inr (.inr (.inl ⟨ms, rfl⟩))

theorem token?_of_uses (h : op.uses token = true) : op.token? = some token := by
  cases op <;> simp_all [uses, token?]

theorem lastAccess?_run_of_uses (h : op.uses token = true) :
    (op.run r).2.lastAccess? token = some r.now ∨
      r.lastAccess? token = none ∧ (op.run r).2.lastAccess? token = none := by
  have htoken := token?_of_uses h
  rcases run_cases op r with ⟨t, ht, -, hused⟩ | rfl | ⟨ms, rfl⟩ | ⟨-, hno⟩
  · obtain rfl : t = token := Option.some.inj (ht.symm.trans htoken)
    exact hused.lastAccess?_self
  · cases htoken
  · cases htoken
  · rw [hno] at h
    cases h

theorem lastAccess?_run_of_not_uses (h : op.uses token = false) (hsweep : op ≠ .sweep) :
    (op.run r).2.lastAccess? token = r.lastAccess? token := by
  rcases run_cases op r with ⟨t, -, huses, hused⟩ | rfl | ⟨ms, rfl⟩ | ⟨hsame, -⟩
  · refine hused.lastAccess?_of_ne ?_
    rintro rfl
    rw [huses] at h
    cases h
  · exact absurd rfl hsweep
  · rfl
  · rw [hsame]

@[simp] theorem limits_run (op : Operation) (r : Registry) : (op.run r).2.limits = r.limits := by
  rcases run_cases op r with ⟨t, -, -, hused⟩ | rfl | ⟨ms, rfl⟩ | ⟨hsame, -⟩
  · exact hused.limits_eq
  · rfl
  · rfl
  · rw [hsame]

theorem now_run_of_ne_advance (h : ∀ ms, op ≠ .advance ms) : (op.run r).2.now = r.now := by
  rcases run_cases op r with ⟨t, -, -, hused⟩ | rfl | ⟨ms, rfl⟩ | ⟨hsame, -⟩
  · exact hused.now_eq
  · rfl
  · exact absurd rfl (h ms)
  · rw [hsame]

theorem now_le_run (op : Operation) (r : Registry) : r.now ≤ (op.run r).2.now := by
  by_cases h : ∃ ms, op = .advance ms
  · obtain ⟨ms, rfl⟩ := h
    exact Nat.le_add_right ..
  · exact Nat.le_of_eq (now_run_of_ne_advance fun ms heq => h ⟨ms, heq⟩).symm

end Operation

end EventRelay.Ack
