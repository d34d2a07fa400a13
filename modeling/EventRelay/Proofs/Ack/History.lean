import EventRelay.Proofs.Ack.Step
import Mathlib.Data.List.Induction

/-!
# A registry is a function of its history

A history is what somebody sees who watches a registry from its beginning: the operations with their
times and answers. It says which ids wait (`Tracked`) and which are acknowledged (`Acknowledged`),
in terms of the latest registration of an id and of what happened since, and when a token was last
used (`lastUse`). `listAcks_runAll` says that the registry agrees with its history, after every run
and for every id.

A token's last use is read off the history alone. It is the session's last access as long as the
token has a session, and a token without a session has no ids, so nothing hangs on it then.
-/

namespace EventRelay.Ack

/-! ## Histories -/

/-- What happens when operations are done one after another, in order. -/
def Operation.history : List Operation → Registry → List Moment
  | [], _ => []
  | op :: ops, r => op.moment r :: history ops (op.run r).2

/-- When a token was last used. -/
def lastUse (token : String) (h : List Moment) : Option Nat :=
  (h.filter fun m => m.operation.uses token).getLast?.map Moment.time

/-- A sweep that finds a token unused for too long. -/
def Moment.Evicts (limits : Limits) (token : String) (past : List Moment) (m : Moment) : Prop :=
  m.operation = .sweep ∧
    ∃ used, lastUse token past = some used ∧ limits.maxSessionAge < m.time - used

/-- A sweep that finds an id registered too long ago. -/
def Moment.Expires (limits : Limits) (since : Nat) (m : Moment) : Prop :=
  m.operation = .sweep ∧ limits.maxAckAge < m.time - since

/-- What ends the registration of an id at a given time, be it by a new one. -/
def Moment.Ends (limits : Limits) (token channel : String) (id since : Nat) (past : List Moment)
    (m : Moment) : Prop :=
  m.Registers token channel id ∨ m.Removes token channel id ∨ m.Expires limits since ∨
    m.Evicts limits token past

/-- A registration of an id that nothing has ended: the moment `m`, at place `i` of a history. -/
structure Held (limits : Limits) (token channel : String) (id : Nat) (h : List Moment) (i : Nat)
    (m : Moment) : Prop where
  here : h[i]? = some m
  registers : m.Registers token channel id
  lasts : ∀ j m', i < j → h[j]? = some m' → ¬ m'.Ends limits token channel id m.time (h.take j)

/-- An id is marked after a place of a history. -/
def MarkedAfter (token channel : String) (id : Nat) (h : List Moment) (i : Nat) : Prop :=
  ∃ j m, i < j ∧ h[j]? = some m ∧ m.Marks token channel id

/-- An id waits: its latest registration has not ended. -/
def Tracked (limits : Limits) (token channel : String) (id : Nat) (h : List Moment) : Prop :=
  ∃ i m, Held limits token channel id h i m

/-- An id is acknowledged: it waits and has been marked since its latest registration. -/
def Acknowledged (limits : Limits) (token channel : String) (id : Nat) (h : List Moment) : Prop :=
  ∃ i m, Held limits token channel id h i m ∧ MarkedAfter token channel id h i

/-! ## One more moment -/

namespace Operation

theorem history_append (ops ops' : List Operation) (r : Registry) :
    history (ops ++ ops') r = history ops r ++ history ops' (runAll ops r).2 := by
  induction ops generalizing r with
  | nil => rfl
  | cons op ops ih => simp only [List.cons_append, history, runAll, ih]

theorem runAll_append (ops ops' : List Operation) (r : Registry) :
    (runAll (ops ++ ops') r).2 = (runAll ops' (runAll ops r).2).2 := by
  induction ops generalizing r with
  | nil => rfl
  | cons op ops ih => simp only [List.cons_append, runAll, ih]

theorem history_concat (ops : List Operation) (op : Operation) (r : Registry) :
    history (ops ++ [op]) r = history ops r ++ [op.moment (runAll ops r).2] :=
  history_append ops [op] r

theorem runAll_concat (ops : List Operation) (op : Operation) (r : Registry) :
    (runAll (ops ++ [op]) r).2 = (op.run (runAll ops r).2).2 :=
  runAll_append ops [op] r

theorem history_eq_run (ops : List Operation) (r : Registry) :
    (history ops r).map Moment.operation = ops ∧
      (history ops r).map Moment.answer = (runAll ops r).1 := by
  induction ops generalizing r with
  | nil => exact ⟨rfl, rfl⟩
  | cons op ops ih =>
    obtain ⟨h₁, h₂⟩ := ih (op.run r).2
    simp only [history, runAll, List.map_cons, h₁, h₂]
    exact ⟨rfl, rfl⟩

@[simp] theorem limits_runAll (ops : List Operation) (r : Registry) :
    (runAll ops r).2.limits = r.limits := by
  induction ops generalizing r with
  | nil => rfl
  | cons op ops ih => rw [runAll, ih, limits_run]

theorem now_le_runAll (ops : List Operation) (r : Registry) : r.now ≤ (runAll ops r).2.now := by
  induction ops generalizing r with
  | nil => exact Nat.le_refl _
  | cons op ops ih => exact Nat.le_trans (now_le_run op r) (ih (op.run r).2)

end Operation

theorem lastUse_concat (token : String) (h : List Moment) (m : Moment) :
    lastUse token (h ++ [m]) =
      if m.operation.uses token = true then some m.time else lastUse token h := by
  unfold lastUse
  rw [List.filter_append]
  split
  · next hu => simp [hu]
  · next hu => simp [hu]

section Concat

variable {limits : Limits} {token channel : String} {id : Nat} {h : List Moment} {x : Moment}

theorem getElem?_concat_some {i : Nat} {m : Moment} :
    (h ++ [x])[i]? = some m ↔ h[i]? = some m ∨ i = h.length ∧ m = x := by
  rcases Nat.lt_trichotomy i h.length with hi | rfl | hi
  · simp [List.getElem?_append_left hi, Nat.ne_of_lt hi]
  · simp [eq_comm]
  · rw [List.getElem?_eq_none (by rw [List.length_append]; exact hi),
      List.getElem?_eq_none (Nat.le_of_lt hi)]
    simp [Nat.ne_of_gt hi]

theorem lt_length_of_getElem? {i : Nat} {m : Moment} (hi : h[i]? = some m) : i < h.length := by
  obtain ⟨hlt, -⟩ := List.getElem?_eq_some_iff.1 hi
  exact hlt

theorem Held.last (hx : x.Registers token channel id) :
    Held limits token channel id (h ++ [x]) h.length x := by
  refine ⟨getElem?_concat_some.2 (.inr ⟨rfl, rfl⟩), hx, ?_⟩
  intro j m' hj hm'
  have := lt_length_of_getElem? hm'
  simp only [List.length_append, List.length_singleton] at this
  omega

theorem Held.concat {i : Nat} {m : Moment} (hh : Held limits token channel id h i m)
    (hx : ¬ x.Ends limits token channel id m.time h) :
    Held limits token channel id (h ++ [x]) i m := by
  refine ⟨getElem?_concat_some.2 (.inl hh.here), hh.registers, ?_⟩
  intro j m' hj hm'
  rcases getElem?_concat_some.1 hm' with hm' | ⟨rfl, rfl⟩
  · rw [List.take_append_of_le_length (Nat.le_of_lt (lt_length_of_getElem? hm'))]
    exact hh.lasts j m' hj hm'
  · rwa [List.take_append_of_le_length (Nat.le_refl _), List.take_length]

/-- A registration that has not ended is the last moment, or one before that is not ended by it. -/
theorem Held.of_concat {i : Nat} {m : Moment} (hh : Held limits token channel id (h ++ [x]) i m) :
    i = h.length ∧ m = x ∧ x.Registers token channel id ∨
      Held limits token channel id h i m ∧ ¬ x.Ends limits token channel id m.time h := by
  rcases getElem?_concat_some.1 hh.here with hi | ⟨rfl, rfl⟩
  · have hlt := lt_length_of_getElem? hi
    refine .inr ⟨⟨hi, hh.registers, ?_⟩, ?_⟩
    · intro j m' hj hm'
      have hends := hh.lasts j m' hj (getElem?_concat_some.2 (.inl hm'))
      rwa [List.take_append_of_le_length (Nat.le_of_lt (lt_length_of_getElem? hm'))] at hends
    · have hends := hh.lasts h.length x hlt (getElem?_concat_some.2 (.inr ⟨rfl, rfl⟩))
      rwa [List.take_append_of_le_length (Nat.le_refl _), List.take_length] at hends
  · exact .inl ⟨rfl, rfl, hh.registers⟩

theorem markedAfter_concat {i : Nat} (hi : i < h.length) :
    MarkedAfter token channel id (h ++ [x]) i ↔
      MarkedAfter token channel id h i ∨ x.Marks token channel id := by
  constructor
  · rintro ⟨j, m, hj, hm, hmark⟩
    rcases getElem?_concat_some.1 hm with hm | ⟨rfl, rfl⟩
    · exact .inl ⟨j, m, hj, hm, hmark⟩
    · exact .inr hmark
  · rintro (⟨j, m, hj, hm, hmark⟩ | hmark)
    · exact ⟨j, m, hj, getElem?_concat_some.2 (.inl hm), hmark⟩
    · exact ⟨h.length, x, hi, getElem?_concat_some.2 (.inr ⟨rfl, rfl⟩), hmark⟩

theorem not_markedAfter_last : ¬ MarkedAfter token channel id (h ++ [x]) h.length := by
  rintro ⟨j, m, hj, hm, -⟩
  have := lt_length_of_getElem? hm
  simp only [List.length_append, List.length_singleton] at this
  omega

end Concat

/-! ## The registry agrees with its history -/

/-- What is kept of an id is what the history says of its registration at place `i`. -/
def Describes (token channel : String) (id : Nat) (h : List Moment) (i : Nat) (m : Moment)
    (a : Ack) : Prop :=
  a.registeredAt = m.time ∧ (a.acknowledged = true ↔ MarkedAfter token channel id h i)

/-- A registry agrees with a history on a token and an id of one of its channels. -/
structure Agrees (token channel : String) (id : Nat) (h : List Moment) (r : Registry) : Prop where
  lastUse : ∀ {used}, r.lastAccess? token = some used → lastUse token h = some used
  held_of_entry : ∀ {a}, r.waiting? token channel id = some a →
    ∃ i m, Held r.limits token channel id h i m ∧ Describes token channel id h i m a
  entry_of_held : ∀ {i m}, Held r.limits token channel id h i m →
    ∃ a, r.waiting? token channel id = some a ∧ Describes token channel id h i m a

namespace Agrees

variable {token channel : String} {id : Nat} {h : List Moment} {r : Registry} {op : Operation}

theorem empty (limits : Limits) (now : Nat) : Agrees token channel id [] { limits, now } where
  lastUse hu := by simp [Registry.lastAccess?] at hu
  held_of_entry he := by simp [Registry.waiting?, Registry.channel?] at he
  entry_of_held hh := by simp at hh; exact absurd hh.here (by simp)

theorem lastUse_step (ih : Agrees token channel id h r) {used : Nat}
    (hu : (op.run r).2.lastAccess? token = some used) :
    Ack.lastUse token (h ++ [op.moment r]) = some used := by
  rw [lastUse_concat, Operation.moment_operation, Operation.moment_time]
  by_cases huses : op.uses token = true
  · rw [if_pos huses]
    rcases Operation.lastAccess?_run_of_uses huses with hnow | ⟨-, hnone⟩
    · rw [hnow] at hu; exact hu
    · rw [hnone] at hu; cases hu
  · rw [if_neg huses]
    by_cases hsweep : op = .sweep
    · subst hsweep
      rw [Operation.run, Registry.lastAccess?_sweep] at hu
      exact ih.lastUse (Option.filter_eq_some_iff.1 hu).1
    · rw [Operation.lastAccess?_run_of_not_uses (by simpa using huses) hsweep] at hu
      exact ih.lastUse hu

theorem not_ends_of_ne_sweep {since : Nat} (hreg : ¬ (op.moment r).Registers token channel id)
    (hrem : ¬ (op.moment r).Removes token channel id) (hsweep : op ≠ .sweep) :
    ¬ (op.moment r).Ends r.limits token channel id since h := by
  rintro (hends | hends | ⟨hends, -⟩ | ⟨hends, -⟩)
  · exact hreg hends
  · exact hrem hends
  · exact hsweep hends
  · exact hsweep hends

/-- A sweep ends a registration exactly if the token is idle or the id is old. -/
theorem sweep_ends_iff (ih : Agrees token channel id h r) {used since : Nat}
    (hu : r.lastAccess? token = some used) :
    (Operation.sweep.moment r).Ends r.limits token channel id since h ↔
      ¬ r.Recent used ∨ ¬ r.now - since ≤ r.limits.maxAckAge := by
  have hlast := ih.lastUse hu
  constructor
  · rintro (⟨⟨⟩, -⟩ | (⟨⟨⟩⟩ | ⟨s, query, ids, ⟨⟩, -⟩) | ⟨-, hold⟩ | ⟨-, used', hused', hidle⟩)
    · exact .inr (Nat.not_le_of_lt hold)
    · rw [hlast] at hused'
      cases hused'
      exact .inl (Nat.not_le_of_lt hidle)
  · rintro (hidle | hold)
    · exact .inr (.inr (.inr ⟨rfl, used, hlast, Nat.lt_of_not_le hidle⟩))
    · exact .inr (.inr (.inl ⟨rfl, Nat.lt_of_not_le hold⟩))

theorem not_marks_sweep : ¬ (Operation.sweep.moment r).Marks token channel id := nofun

theorem describes_concat {x : Moment} {i : Nat} {m : Moment} {a b : Ack}
    (ha : Describes token channel id h i m a) (hi : i < h.length)
    (hat : b.registeredAt = a.registeredAt)
    (hack : b.acknowledged = true ↔ a.acknowledged = true ∨ x.Marks token channel id) :
    Describes token channel id (h ++ [x]) i m b :=
  ⟨hat.trans ha.1, by rw [markedAfter_concat hi, hack, ha.2]⟩

theorem step_of_registers (ih : Agrees token channel id h r)
    (hreg : (op.moment r).Registers token channel id) :
    Agrees token channel id (h ++ [op.moment r]) (op.run r).2 where
  lastUse := ih.lastUse_step
  held_of_entry he := by
    rw [Operation.waiting?_run_of_registers hreg] at he
    cases he
    refine ⟨h.length, op.moment r, Held.last hreg, rfl, ?_⟩
    simp [not_markedAfter_last]
  entry_of_held hh := by
    rcases hh.of_concat with ⟨rfl, rfl, -⟩ | ⟨-, hends⟩
    · refine ⟨_, Operation.waiting?_run_of_registers hreg, rfl, ?_⟩
      simp [not_markedAfter_last]
    · exact absurd (.inl hreg) hends

theorem step_of_removes (ih : Agrees token channel id h r)
    (hreg : ¬ (op.moment r).Registers token channel id)
    (hrem : (op.moment r).Removes token channel id) :
    Agrees token channel id (h ++ [op.moment r]) (op.run r).2 where
  lastUse := ih.lastUse_step
  held_of_entry he := by
    rw [Operation.waiting?_run_of_removes hrem] at he
    cases he
  entry_of_held hh := by
    rcases hh.of_concat with ⟨-, -, hreg'⟩ | ⟨-, hends⟩
    · exact absurd hreg' hreg
    · exact absurd (.inr (.inl hrem)) hends

/-- A sweep keeps the registrations that it does not end. -/
theorem step_of_sweep (ih : Agrees token channel id h r) :
    Agrees token channel id (h ++ [Operation.sweep.moment r]) (Operation.sweep.run r).2 where
  lastUse := ih.lastUse_step
  held_of_entry {a} he := by
    rw [Operation.run] at he
    cases hu : r.lastAccess? token with
    | none => rw [Registry.waiting?_sweep_of_idle (by simp [hu])] at he; cases he
    | some used =>
      by_cases hrecent : r.Recent used
      · rw [Registry.waiting?_sweep_of_recent hu hrecent, Option.filter_eq_some_iff] at he
        obtain ⟨hentry, hyoung⟩ := he
        obtain ⟨i, m, hh, hd⟩ := ih.held_of_entry hentry
        refine ⟨i, m, ?_, describes_concat hd (lt_length_of_getElem? hh.here) rfl ?_⟩
        · refine Held.concat hh ?_
          rw [Operation.limits_run, ih.sweep_ends_iff hu, ← hd.1]
          simpa [hrecent] using hyoung
        · simp [not_marks_sweep]
      · rw [Registry.waiting?_sweep_of_idle (by simpa [hu] using hrecent)] at he
        cases he
  entry_of_held {i m} hh := by
    rw [Operation.limits_run] at hh
    rcases hh.of_concat with ⟨-, -, ⟨⟩, -⟩ | ⟨hh, hends⟩
    obtain ⟨a, ha, hd⟩ := ih.entry_of_held hh
    obtain ⟨used, hu⟩ := Registry.lastAccess?_of_waiting? ha
    rw [ih.sweep_ends_iff hu, not_or, Decidable.not_not, Decidable.not_not] at hends
    refine ⟨a, ?_, describes_concat hd (lt_length_of_getElem? hh.here) rfl ?_⟩
    · rw [Operation.run, Registry.waiting?_sweep_of_recent hu hends.1, Option.filter_eq_some_iff]
      exact ⟨ha, by simpa [hd.1] using hends.2⟩
    · simp [not_marks_sweep]

/-- Every other operation keeps the registrations, and marks the id or does not. -/
theorem step_of_other (ih : Agrees token channel id h r)
    (hreg : ¬ (op.moment r).Registers token channel id)
    (hrem : ¬ (op.moment r).Removes token channel id) (hsweep : op ≠ .sweep) :
    Agrees token channel id (h ++ [op.moment r]) (op.run r).2 := by
  have hkeep : ∃ g : Ack → Ack, (op.run r).2.waiting? token channel id =
      (r.waiting? token channel id).map g ∧ ∀ a, (g a).registeredAt = a.registeredAt ∧
        ((g a).acknowledged = true ↔
          a.acknowledged = true ∨ (op.moment r).Marks token channel id) := by
    by_cases hmark : (op.moment r).Marks token channel id
    · exact ⟨({ · with acknowledged := true }), Operation.waiting?_run_of_marks hmark,
        by simp [hmark]⟩
    · refine ⟨fun a => a, ?_, by simp [hmark]⟩
      rw [Operation.waiting?_run_of_other hreg hrem hmark hsweep, Option.map_id']
  obtain ⟨g, hentry, hg⟩ := hkeep
  have hends (since : Nat) :
      ¬ (op.moment r).Ends r.limits token channel id since h :=
    not_ends_of_ne_sweep hreg hrem hsweep
  refine ⟨ih.lastUse_step, ?_, ?_⟩
  · intro b he
    rw [hentry, Option.map_eq_some_iff] at he
    obtain ⟨a, ha, rfl⟩ := he
    obtain ⟨i, m, hh, hd⟩ := ih.held_of_entry ha
    refine ⟨i, m, ?_, describes_concat hd (lt_length_of_getElem? hh.here) (hg a).1 (hg a).2⟩
    rw [Operation.limits_run]
    exact hh.concat (hends m.time)
  · intro i m hh
    rw [Operation.limits_run] at hh
    rcases hh.of_concat with ⟨-, -, hreg'⟩ | ⟨hh, -⟩
    · exact absurd hreg' hreg
    · obtain ⟨a, ha, hd⟩ := ih.entry_of_held hh
      exact ⟨g a, by rw [hentry, ha]; rfl,
        describes_concat hd (lt_length_of_getElem? hh.here) (hg a).1 (hg a).2⟩

/-- Agreement is kept by every operation. -/
theorem step (ih : Agrees token channel id h r) (op : Operation) :
    Agrees token channel id (h ++ [op.moment r]) (op.run r).2 := by
  by_cases hreg : (op.moment r).Registers token channel id
  · exact ih.step_of_registers hreg
  by_cases hrem : (op.moment r).Removes token channel id
  · exact ih.step_of_removes hreg hrem
  by_cases hsweep : op = .sweep
  · subst hsweep
    exact ih.step_of_sweep
  · exact ih.step_of_other hreg hrem hsweep

/-- A registry agrees with its history, whatever was done to it. -/
theorem runAll (limits : Limits) (now : Nat) (ops : List Operation) :
    Agrees token channel id (Operation.history ops { limits, now })
      (Operation.runAll ops { limits, now }).2 := by
  induction ops using List.reverseRecOn with
  | nil => exact empty limits now
  | append_singleton ops op ih =>
    rw [Operation.history_concat, Operation.runAll_concat]
    exact ih.step op

end Agrees

/-- After every run from an empty registry the ids that wait are those that the history tracks, the
acknowledged ones among them those that it says are acknowledged, and the last access of a session
is the last use of its token. -/
theorem listAcks_runAll (limits : Limits) (now : Nat) (ops : List Operation)
    (token channel : String) (id : Nat) :
    let r := (Operation.runAll ops { limits, now }).2
    let h := Operation.history ops { limits, now }
    ((∃ a, (id, a) ∈ (r.listAcks token channel).1) ↔ Tracked limits token channel id h) ∧
      ((∃ a, (id, a) ∈ (r.listAcks token channel).1 ∧ a.acknowledged = true) ↔
        Acknowledged limits token channel id h) ∧
      ((r.isAcknowledged token channel id).1 = true ↔ Acknowledged limits token channel id h) ∧
      ∀ s, r.sessions[token]? = some s → lastUse token h = some s.lastAccess := by
  intro r h
  have agrees : Agrees token channel id h r := Agrees.runAll limits now ops
  have hlimits : r.limits = limits := Operation.limits_runAll ops _
  have hack : (∃ a, r.waiting? token channel id = some a ∧ a.acknowledged = true) ↔
      Acknowledged limits token channel id h := by
    constructor
    · rintro ⟨a, ha, hmarked⟩
      obtain ⟨i, m, hh, hd⟩ := agrees.held_of_entry ha
      exact ⟨i, m, hlimits ▸ hh, hd.2.1 hmarked⟩
    · rintro ⟨i, m, hh, hmarked⟩
      obtain ⟨a, ha, hd⟩ := agrees.entry_of_held (hlimits ▸ hh)
      exact ⟨a, ha, hd.2.2 hmarked⟩
  simp only [Registry.mem_listAcks]
  refine ⟨⟨?_, ?_⟩, hack, ?_, fun s hs => agrees.lastUse (by simp [Registry.lastAccess?, hs])⟩
  · rintro ⟨a, ha⟩
    obtain ⟨i, m, hh, -⟩ := agrees.held_of_entry ha
    exact ⟨i, m, hlimits ▸ hh⟩
  · rintro ⟨i, m, hh⟩
    obtain ⟨a, ha, -⟩ := agrees.entry_of_held (hlimits ▸ hh)
    exact ⟨a, ha⟩
  · rw [← hack, Registry.isAcknowledged_answer]
    cases r.waiting? token channel id <;> simp

end EventRelay.Ack
