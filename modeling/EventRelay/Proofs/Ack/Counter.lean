import EventRelay.Proofs.Ack.History

/-!
# The counter of a channel

A channel's counter is what its next id will be, 0 for a channel that does not exist. Only issuing
an id moves it (`counter_run_of_issues`, `counter_run_of_other`), and only a sweep that finds the
token idle takes it back. So an id is not issued twice on a channel unless the session was evicted
in between (`evicted_between_issues`).

States are named by places here: the state at a place of a run is the one that the operation at that
place meets.
-/

namespace EventRelay.Ack

/-- The id is issued. -/
def Moment.Issues (token channel : String) (id : Nat) (m : Moment) : Prop :=
  m.operation = .nextAckId token channel ∧ m.answer = .id id

/-! ## One step -/

namespace Channel

@[simp] theorem nextId_register (limit now id : Nat) (c : Channel) :
    (c.register limit now id).2.nextId = c.nextId := by
  unfold register
  split <;> rfl

@[simp] theorem nextId_acknowledge (id : Nat) (c : Channel) :
    (c.acknowledge id).2.nextId = c.nextId := by
  unfold acknowledge
  split <;> rfl

@[simp] theorem nextId_report (ids : List Int) (found : Statuses) (c : Channel) :
    (c.report ids found).2.nextId = c.nextId := by
  induction ids generalizing found c with
  | nil => rfl
  | cons named ids ih => cases named <;> rw [report, ih]; rfl

end Channel

namespace Registry

/-- The id that a channel gives out next. -/
def counter (token channel : String) (r : Registry) : Nat :=
  ((r.channel? token channel).map Channel.nextId).getD 0

variable {r : Registry} {token channel : String} {α : Type}

theorem counter_onChannel {f : Channel → Except Refusal α × Channel}
    (hf : ∀ c, (f c).2.nextId = c.nextId) (token' channel' : String) :
    (r.onChannel token channel f).2.counter token' channel' = r.counter token' channel' := by
  cases hs : r.session token with
  | error e => rw [onChannel_of_error hs]
  | ok s =>
    unfold counter
    rw [channel?_onChannel hs]
    split
    · next heq =>
      obtain ⟨rfl, rfl⟩ := heq
      cases r.channel? token channel <;> simp [hf]
    · rfl

theorem counter_onExisting {absent : α} {f : Channel → α × Channel}
    (hf : ∀ c, (f c).2.nextId = c.nextId) (token' channel' : String) :
    (r.onExisting token channel absent f).2.counter token' channel' =
      r.counter token' channel' := by
  unfold counter
  rw [channel?_onExisting]
  split
  · cases r.channel? token' channel' <;> simp [hf]
  · rfl

theorem counter_ensureSession (token' channel' : String) :
    (r.ensureSession token).2.counter token' channel' = r.counter token' channel' := by
  unfold counter
  rw [channel?_ensureSession]

/-- Issuing an id answers with the counter and moves it on by one, on its own channel only. -/
theorem counter_nextAckId {id : Nat} (h : (r.nextAckId token channel).1 = .ok id)
    (token' channel' : String) :
    id = r.counter token channel ∧ (r.nextAckId token channel).2.counter token' channel' =
      if token = token' ∧ channel = channel' then id + 1 else r.counter token' channel' := by
  unfold nextAckId at h ⊢
  cases hs : r.session token with
  | error e => rw [onChannel_of_error hs] at h; cases h
  | ok s =>
    rw [onChannel_of_ok hs] at h
    have hid : id = r.counter token channel := by
      cases h
      unfold counter
      cases r.channel? token channel <;> rfl
    refine ⟨hid, ?_⟩
    unfold counter at hid ⊢
    rw [channel?_onChannel hs]
    split
    · rw [hid]
      cases r.channel? token channel <;> rfl
    · rfl

theorem counter_nextAckId_of_error {e : Refusal} (h : (r.nextAckId token channel).1 = .error e)
    (token' channel' : String) :
    (r.nextAckId token channel).2.counter token' channel' = r.counter token' channel' := by
  unfold nextAckId at h ⊢
  cases hs : r.session token with
  | error e => rw [onChannel_of_error hs]
  | ok s => rw [onChannel_of_ok hs] at h; cases h

theorem counter_of_absent (h : r.lastAccess? token = none) (channel : String) :
    r.counter token channel = 0 := by
  unfold counter
  cases hc : r.channel? token channel with
  | none => rfl
  | some c =>
    obtain ⟨used, hused⟩ := lastAccess?_of_channel? hc
    rw [h] at hused
    cases hused

theorem counter_sweep_of_recent {used : Nat} (h : r.lastAccess? token = some used)
    (hr : r.Recent used) (channel : String) :
    r.sweep.2.counter token channel = r.counter token channel := by
  unfold counter
  rw [channel?_sweep_of_recent h hr]
  cases r.channel? token channel <;> rfl

end Registry

namespace Operation

open Registry

variable {op : Operation} {r : Registry} {token channel : String} {id : Nat}

theorem answer_eq_id_iff {x : Except Refusal Nat} :
    Answer.ofExcept .id x = .id id ↔ x = .ok id := by
  cases x <;> simp [Answer.ofExcept]

theorem counter_run_of_issues (h : (op.moment r).Issues token channel id) :
    r.counter token channel = id ∧ (op.run r).2.counter token channel = id + 1 := by
  obtain ⟨hop, hanswer⟩ := h
  rw [moment_operation] at hop
  subst hop
  obtain ⟨hid, hnext⟩ := counter_nextAckId (answer_eq_id_iff.1 hanswer) token channel
  exact ⟨hid.symm, by rw [run, hnext, if_pos ⟨rfl, rfl⟩]⟩

/-- Whatever issues no id of a channel and is no sweep leaves its counter alone. -/
theorem counter_run_of_other (hissue : ∀ id, ¬ (op.moment r).Issues token channel id)
    (hsweep : op ≠ .sweep) : (op.run r).2.counter token channel = r.counter token channel := by
  cases op with
  | ensureSession t => exact counter_ensureSession token channel
  | ensureChannel t c => exact counter_onChannel (fun _ => rfl) token channel
  | nextAckId t c =>
    cases hx : (r.nextAckId t c).1 with
    | error e => exact counter_nextAckId_of_error hx token channel
    | ok id =>
      rw [run, (counter_nextAckId hx token channel).2, if_neg]
      rintro ⟨rfl, rfl⟩
      exact hissue id ⟨rfl, answer_eq_id_iff.2 hx⟩
  | registerAck t c i => exact counter_onChannel (fun _ => Channel.nextId_register ..) token channel
  | markAcknowledged t c i =>
    exact counter_onExisting (α := Bool) (fun _ => Channel.nextId_acknowledge ..) token channel
  | isAcknowledged t c i => exact counter_onExisting (α := Bool) (fun _ => rfl) token channel
  | deleteAck t c i => exact counter_onExisting (α := Bool) (fun _ => rfl) token channel
  | listAcks t c =>
    exact counter_onExisting (α := List (Nat × Ack)) (fun _ => rfl) token channel
  | ackCount t c => exact counter_onExisting (α := Nat) (fun _ => rfl) token channel
  | report t c query =>
    cases hq : queriedIds? query with
    | none => rw [run, report_of_unused (by rw [hq]; rfl)]
    | some x =>
      cases x with
      | error e => rw [run, report_of_unused (by rw [hq]; rfl)]
      | ok ids =>
        by_cases hs : r.lastAccess? t = none
        · rw [run, report_of_absent hq hs]
        · rw [run, report_of_live hq hs]
          exact counter_onExisting (α := Except Refusal Statuses)
            (fun c => Channel.nextId_report ids .empty c) token channel
  | sweep => exact absurd rfl hsweep
  | advance ms => rfl

/-- A session lives on and its counters do not fall, unless a sweep finds it idle. -/
theorem live_run {used : Nat} (h : r.lastAccess? token = some used)
    (hrecent : op = .sweep → r.Recent used) (channel : String) :
    (∃ used', (op.run r).2.lastAccess? token = some used') ∧
      r.counter token channel ≤ (op.run r).2.counter token channel := by
  by_cases hsweep : op = .sweep
  · subst hsweep
    refine ⟨⟨used, ?_⟩, Nat.le_of_eq (counter_sweep_of_recent h (hrecent rfl) channel).symm⟩
    rw [run, lastAccess?_sweep, h]
    simp [Option.filter_some, hrecent]
  refine ⟨?_, ?_⟩
  · cases huses : op.uses token with
    | true =>
      rcases lastAccess?_run_of_uses (r := r) huses with hused | ⟨hnone, -⟩
      · exact ⟨_, hused⟩
      · rw [h] at hnone; cases hnone
    | false => exact ⟨used, by rw [lastAccess?_run_of_not_uses huses hsweep, h]⟩
  · by_cases hissue : ∃ id, (op.moment r).Issues token channel id
    · obtain ⟨id, hid⟩ := hissue
      obtain ⟨hbefore, hafter⟩ := counter_run_of_issues hid
      omega
    · have hsame : (op.run r).2.counter token channel = r.counter token channel :=
        counter_run_of_other (fun id hid => hissue ⟨id, hid⟩) hsweep
      exact Nat.le_of_eq hsame.symm

theorem live_of_issues (h : (op.moment r).Issues token channel id) :
    (∃ used, (op.run r).2.lastAccess? token = some used) ∧
      id < (op.run r).2.counter token channel := by
  obtain ⟨-, hnext⟩ := counter_run_of_issues h
  refine ⟨?_, by omega⟩
  cases hlive : (op.run r).2.lastAccess? token with
  | some used => exact ⟨used, rfl⟩
  | none =>
    rw [counter_of_absent hlive] at hnext
    cases hnext

end Operation

/-! ## States at places of a run -/

namespace Operation

variable {r : Registry} {ops : List Operation}

/-- The state that the operation at a place of a run meets. -/
def stateAt (ops : List Operation) (r : Registry) (n : Nat) : Registry := (runAll (ops.take n) r).2

theorem history_take (ops : List Operation) (r : Registry) (n : Nat) :
    history (ops.take n) r = (history ops r).take n := by
  induction ops generalizing r n with
  | nil => simp [history]
  | cons op ops ih =>
    cases n with
    | zero => rfl
    | succ n => simp only [List.take_succ_cons, history, ih]

theorem getElem?_history (ops : List Operation) (r : Registry) (n : Nat) :
    (history ops r)[n]? = ops[n]?.map fun op => op.moment (stateAt ops r n) := by
  induction ops generalizing r n with
  | nil => simp [history]
  | cons op ops ih =>
    cases n with
    | zero => rfl
    | succ n =>
      simp only [List.getElem?_cons_succ, history, ih]
      rfl

theorem stateAt_succ {n : Nat} {op : Operation} (h : ops[n]? = some op) (r : Registry) :
    stateAt ops r (n + 1) = (op.run (stateAt ops r n)).2 := by
  unfold stateAt
  rw [List.take_add_one, h, Option.toList_some, runAll_concat]

theorem exists_of_getElem?_history {n : Nat} {m : Moment} (h : (history ops r)[n]? = some m) :
    ∃ op, ops[n]? = some op ∧ m = op.moment (stateAt ops r n) := by
  rw [getElem?_history, Option.map_eq_some_iff] at h
  obtain ⟨op, hop, rfl⟩ := h
  exact ⟨op, hop, rfl⟩

end Operation

section Issued

variable (limits : Limits) (now : Nat) (ops : List Operation)

theorem Agrees.stateAt (token channel : String) (id n : Nat) :
    Agrees token channel id ((Operation.history ops { limits, now }).take n)
      (Operation.stateAt ops { limits, now } n) := by
  rw [← Operation.history_take]
  exact Agrees.runAll limits now (ops.take n)

/-- Whether the session of a token is evicted strictly between two places of a history. -/
def EvictedBetween (limits : Limits) (token : String) (h : List Moment) (i j : Nat) : Prop :=
  ∃ n m, i < n ∧ n < j ∧ h[n]? = some m ∧ m.Evicts limits token (h.take n)

variable {limits now ops} {token channel : String} {id i j : Nat} {m m' : Moment}

/-- After an id was issued the session lives and the counter stays above the id, until the session
is evicted. -/
theorem live_since_issue
    (hi : (Operation.history ops { limits, now })[i]? = some m) (hm : m.Issues token channel id)
    (hij : i < j) (hj : j ≤ ops.length)
    (hno : ¬ EvictedBetween limits token (Operation.history ops { limits, now }) i j) :
    (∃ used, (Operation.stateAt ops { limits, now } j).lastAccess? token = some used) ∧
      id < (Operation.stateAt ops { limits, now } j).counter token channel := by
  induction j with
  | zero => omega
  | succ j ih =>
    have hop : ops[j]? = some ops[j] := List.getElem?_eq_getElem hj
    rw [Operation.stateAt_succ hop]
    rcases Nat.lt_succ_iff_lt_or_eq.1 hij with hlt | rfl
    · obtain ⟨⟨used, hused⟩, hcounter⟩ := ih hlt (Nat.le_of_lt hj) fun ⟨n, m, hin, hnj, hn⟩ =>
        hno ⟨n, m, hin, Nat.lt_succ_of_lt hnj, hn⟩
      have hrecent : ops[j] = .sweep →
          (Operation.stateAt ops { limits, now } j).Recent used := by
        intro hsweep
        -- a sweep that found the token idle would have evicted the session
        refine Decidable.by_contra fun hidle => hno ⟨j, _, hlt, Nat.lt_succ_self j,
          (Operation.getElem?_history ops _ j).trans (congrArg _ hop), hsweep, used,
          (Agrees.stateAt limits now ops token channel id j).lastUse hused, ?_⟩
        have hlimits : (Operation.stateAt ops { limits, now } j).limits = limits :=
          Operation.limits_runAll _ _
        rw [Registry.Recent, hlimits] at hidle
        exact Nat.lt_of_not_le hidle
      obtain ⟨hlive, hle⟩ := Operation.live_run hused hrecent channel
      exact ⟨hlive, Nat.lt_of_lt_of_le hcounter hle⟩
    · obtain ⟨op, hop', rfl⟩ := Operation.exists_of_getElem?_history hi
      obtain rfl := Option.some.inj (hop.symm.trans hop')
      exact Operation.live_of_issues hm

/-- An id that is issued twice on a channel was issued by two sessions: the first was evicted in
between. -/
theorem evicted_between_issues
    (hi : (Operation.history ops { limits, now })[i]? = some m) (hm : m.Issues token channel id)
    (hj : (Operation.history ops { limits, now })[j]? = some m') (hm' : m'.Issues token channel id)
    (hij : i < j) : EvictedBetween limits token (Operation.history ops { limits, now }) i j := by
  apply Classical.byContradiction
  intro hno
  obtain ⟨op, hop, rfl⟩ := Operation.exists_of_getElem?_history hj
  have hlt : j < ops.length := (List.getElem?_eq_some_iff.1 hop).1
  obtain ⟨-, hcounter⟩ := live_since_issue hi hm hij (Nat.le_of_lt hlt) hno
  have := (Operation.counter_run_of_issues hm').1
  omega

end Issued

end EventRelay.Ack
