import EventRelay.Ack.Sweeper
import EventRelay.Proofs.Ack.Counter
import EventRelay.Proofs.Ack.Eviction

/-!
# Regular sweeps

A sweep forgets what is too old, and nothing that it would forget comes back before the next one
(`Registry.ClearedAt`). So a registry that is swept once in every period keeps nothing for longer
than the age that is allowed and one period more (`ClearedAt.keptWithin`). This needs nothing of the
order in which a sweep and the operations of the same instant take place, only that the sweep that
was due has taken place (`SweptEvery`). On the other hand nothing is forgotten early (`NeverEarly`).

The sweeper does its sweeps while time passes, each at its own time, and `swept_on_time` says all of
this about it. As it makes no difference in how many pieces time passes (`Sweeper.sleep_add`), what
holds at the end of a sleep holds at all times in between.
-/

namespace EventRelay.Ack

/-- Nothing is kept that a sweep at this time would have forgotten. -/
structure Registry.ClearedAt (time : Nat) (r : Registry) : Prop where
  sessions : ∀ {token : String} {used : Nat}, r.lastAccess? token = some used →
    time ≤ used + r.limits.maxSessionAge
  acks : ∀ {token channel : String} {id : Nat} {a : Ack}, r.waiting? token channel id = some a →
    time ≤ a.registeredAt + r.limits.maxAckAge

/-- No session was left unused, and no id has been waiting, for longer than that. -/
structure Registry.KeptWithin (session ack : Nat) (r : Registry) : Prop where
  sessions : ∀ {token : String} {used : Nat}, r.lastAccess? token = some used →
    r.now ≤ used + session
  acks : ∀ {token channel : String} {id : Nat} {a : Ack}, r.waiting? token channel id = some a →
    r.now ≤ a.registeredAt + ack

/-- What is gone after an operation was too old when there was a sweep. Only ids may also be gone
because they were removed, or with their session. -/
structure NeverEarly (op : Operation) (sweeps : Nat → Prop) (r r' : Registry) : Prop where
  sessions : ∀ {token : String} {used : Nat}, r.lastAccess? token = some used →
    r'.lastAccess? token = none → ∃ time, sweeps time ∧ used + r.limits.maxSessionAge < time
  acks : ∀ {token channel : String} {id : Nat} {a : Ack}, r.waiting? token channel id = some a →
    r'.waiting? token channel id = none →
    (op.moment r).Removes token channel id ∨
      (∃ time, sweeps time ∧ a.registeredAt + r.limits.maxAckAge < time) ∨
      r'.lastAccess? token = none

/-- Up to the present there was a sweep at each multiple of the period. -/
def SweptEvery (period : Nat) (h : List Moment) (now : Nat) : Prop :=
  ∀ k, 0 < k → k * period ≤ now → ∃ m ∈ h, m.operation = .sweep ∧ m.time = k * period

/-- There is a sweep at this time while something is done. -/
def Sweeper.SweepsAt (op : Operation) (s : Sweeper) (time : Nat) : Prop :=
  op = .sweep ∧ time = s.registry.now ∨
    s.period ∣ time ∧ s.registry.now < time ∧ time ≤ (s.act op).2.registry.now

/-! ## One operation

What is there after an operation was there before or is new, and what was there before and is gone
was removed or swept. -/

namespace Registry

variable {r : Registry} {token channel : String} {id used : Nat} {a : Ack}

theorem of_waiting?_sweep (h : r.sweep.2.waiting? token channel id = some a) :
    r.waiting? token channel id = some a ∧ r.now ≤ a.registeredAt + r.limits.maxAckAge :=
  (waiting?_sweep_eq_some_iff.1 h).2

theorem old_of_waiting?_sweep (ha : r.waiting? token channel id = some a)
    (hgone : r.sweep.2.waiting? token channel id = none) :
    a.registeredAt + r.limits.maxAckAge < r.now ∨ r.sweep.2.lastAccess? token = none := by
  refine Decidable.or_iff_not_imp_left.2 fun hyoung => Decidable.not_not.1 fun hlive => ?_
  have hkept := waiting?_sweep_eq_some_iff.2 ⟨hlive, ha, Nat.le_of_not_lt hyoung⟩
  rw [hgone] at hkept
  cases hkept

end Registry

theorem NeverEarly.mono {op : Operation} {sweeps sweeps' : Nat → Prop} {r r' : Registry}
    (h : NeverEarly op sweeps r r') (hsweeps : ∀ time, sweeps time → sweeps' time) :
    NeverEarly op sweeps' r r' := by
  refine ⟨?_, ?_⟩
  · intro token used hused hgone
    obtain ⟨time, hsweep, hold⟩ := h.sessions hused hgone
    exact ⟨time, hsweeps time hsweep, hold⟩
  · intro token channel id a ha hgone
    rcases h.acks ha hgone with hrem | ⟨time, hsweep, hold⟩ | hidle
    · exact .inl hrem
    · exact .inr (.inl ⟨time, hsweeps time hsweep, hold⟩)
    · exact .inr (.inr hidle)

/-- What is not the same as before was found too old by a sweep. Only ids may also be gone with
their session. -/
structure FadesTo (sweeps : Nat → Prop) (r r' : Registry) : Prop where
  limits_eq : r'.limits = r.limits
  absent : ∀ {token : String}, r.lastAccess? token = none → r'.lastAccess? token = none
  sessions : ∀ {token : String} {used : Nat}, r.lastAccess? token = some used →
    r'.lastAccess? token ≠ some used →
    ∃ time, sweeps time ∧ used + r.limits.maxSessionAge < time
  acks : ∀ {token channel : String} {id : Nat} {a : Ack}, r.waiting? token channel id = some a →
    r'.waiting? token channel id ≠ some a →
    (∃ time, sweeps time ∧ a.registeredAt + r.limits.maxAckAge < time) ∨
      r'.lastAccess? token = none

namespace FadesTo

variable {sweeps : Nat → Prop} {r r₁ r₂ : Registry}

theorem neverEarly (h : FadesTo sweeps r r₁) (op : Operation) : NeverEarly op sweeps r r₁ := by
  refine ⟨?_, ?_⟩
  · intro token used hused hgone
    exact h.sessions hused (by rw [hgone]; exact (Option.some_ne_none used).symm)
  · intro token channel id a ha hgone
    exact .inr (h.acks ha (by rw [hgone]; exact (Option.some_ne_none a).symm))

theorem trans (h : FadesTo sweeps r r₁) (h' : FadesTo sweeps r₁ r₂) : FadesTo sweeps r r₂ := by
  refine ⟨h'.limits_eq.trans h.limits_eq, fun hnone => h'.absent (h.absent hnone), ?_, ?_⟩
  · intro token used hused hchanged
    by_cases hused₁ : r₁.lastAccess? token = some used
    · rw [← h.limits_eq]
      exact h'.sessions hused₁ hchanged
    · exact h.sessions hused hused₁
  · intro token channel id a ha hchanged
    by_cases ha₁ : r₁.waiting? token channel id = some a
    · rw [← h.limits_eq]
      exact h'.acks ha₁ hchanged
    · rcases h.acks ha ha₁ with hold | hnone
      · exact .inl hold
      · exact .inr (h'.absent hnone)

theorem advance (ms : Nat) (r : Registry) : FadesTo sweeps r (r.advance ms) :=
  ⟨rfl, fun hnone => hnone, fun hused hchanged => absurd hused hchanged,
    fun ha hchanged => absurd ha hchanged⟩

theorem sweep (h : sweeps r.now) : FadesTo sweeps r r.sweep.2 := by
  refine ⟨rfl, ?_, ?_, ?_⟩
  · intro token hnone
    rw [Registry.lastAccess?_sweep, hnone]
    rfl
  · intro token used hused hchanged
    refine ⟨r.now, h, Nat.lt_of_not_le fun hrecent => hchanged ?_⟩
    exact Registry.lastAccess?_sweep_eq_some_iff.2 ⟨hused, hrecent⟩
  · intro token channel id a ha hchanged
    have hgone : r.sweep.2.waiting? token channel id = none := by
      cases hb : r.sweep.2.waiting? token channel id with
      | none => rfl
      | some b =>
        obtain ⟨hsame, -⟩ := Registry.of_waiting?_sweep hb
        rw [ha] at hsame
        exact absurd (hsame ▸ hb) hchanged
    rcases Registry.old_of_waiting?_sweep ha hgone with hold | hidle
    · exact .inl ⟨r.now, h, hold⟩
    · exact .inr hidle

end FadesTo

namespace Operation

variable {op : Operation} {r : Registry} {token channel : String} {id used : Nat} {a : Ack}

theorem of_lastAccess?_run (h : (op.run r).2.lastAccess? token = some used) :
    used = r.now ∨ r.lastAccess? token = some used := by
  by_cases hsweep : op = .sweep
  · subst hsweep
    exact .inr (Registry.lastAccess?_sweep_eq_some_iff.1 h).1
  · cases huses : op.uses token with
    | true =>
      rcases lastAccess?_run_of_uses (r := r) huses with hnow | ⟨-, hnone⟩
      · rw [hnow] at h
        exact .inl (Option.some.inj h).symm
      · rw [hnone] at h
        cases h
    | false =>
      rw [lastAccess?_run_of_not_uses huses hsweep] at h
      exact .inr h

theorem of_waiting?_run (h : (op.run r).2.waiting? token channel id = some a) :
    a.registeredAt = r.now ∨
      ∃ b, r.waiting? token channel id = some b ∧ b.registeredAt = a.registeredAt := by
  by_cases hreg : (op.moment r).Registers token channel id
  · rw [waiting?_run_of_registers hreg] at h
    obtain rfl := Option.some.inj h
    exact .inl rfl
  by_cases hrem : (op.moment r).Removes token channel id
  · rw [waiting?_run_of_removes hrem] at h
    cases h
  by_cases hmark : (op.moment r).Marks token channel id
  · rw [waiting?_run_of_marks hmark] at h
    obtain ⟨b, hb, rfl⟩ := Option.map_eq_some_iff.1 h
    exact .inr ⟨b, hb, rfl⟩
  by_cases hsweep : op = .sweep
  · subst hsweep
    exact .inr ⟨a, (Registry.of_waiting?_sweep h).1, rfl⟩
  · rw [waiting?_run_of_other hreg hrem hmark hsweep] at h
    exact .inr ⟨a, h, rfl⟩

theorem neverEarly_run (op : Operation) (r : Registry) :
    NeverEarly op (fun time => op = .sweep ∧ time = r.now) r (op.run r).2 := by
  by_cases hsweep : op = .sweep
  · subst hsweep
    have hfades : FadesTo (fun time => Operation.sweep = .sweep ∧ time = r.now) r r.sweep.2 :=
      .sweep ⟨rfl, rfl⟩
    exact hfades.neverEarly .sweep
  refine ⟨?_, ?_⟩
  · intro token used hused hgone
    cases huses : op.uses token with
    | true =>
      rcases lastAccess?_run_of_uses (r := r) huses with hnow | ⟨hnone, -⟩
      · rw [hnow] at hgone
        cases hgone
      · rw [hnone] at hused
        cases hused
    | false =>
      rw [lastAccess?_run_of_not_uses huses hsweep, hused] at hgone
      cases hgone
  · intro token channel id a ha hgone
    by_cases hrem : (op.moment r).Removes token channel id
    · exact .inl hrem
    -- whatever else is done, the id waits on
    by_cases hreg : (op.moment r).Registers token channel id
    · rw [waiting?_run_of_registers hreg] at hgone
      cases hgone
    by_cases hmark : (op.moment r).Marks token channel id
    · rw [waiting?_run_of_marks hmark, ha] at hgone
      cases hgone
    · rw [waiting?_run_of_other hreg hrem hmark hsweep, ha] at hgone
      cases hgone

end Operation

namespace Registry.ClearedAt

variable {r : Registry} {time period : Nat}

theorem zero (r : Registry) : r.ClearedAt 0 := ⟨fun _ => Nat.zero_le _, fun _ => Nat.zero_le _⟩

theorem of_sweep (r : Registry) : r.sweep.2.ClearedAt r.now :=
  ⟨fun hused => (lastAccess?_sweep_eq_some_iff.1 hused).2, fun ha => (of_waiting?_sweep ha).2⟩

/-- What is used or registered later is younger than all that was to be forgotten. -/
theorem run (h : r.ClearedAt time) (htime : time ≤ r.now) (op : Operation) :
    (op.run r).2.ClearedAt time := by
  refine ⟨?_, ?_⟩
  · intro token used hused
    rw [Operation.limits_run]
    rcases Operation.of_lastAccess?_run hused with rfl | hused
    · omega
    · exact h.sessions hused
  · intro token channel id a ha
    rw [Operation.limits_run]
    rcases Operation.of_waiting?_run ha with hnow | ⟨b, hb, hat⟩
    · omega
    · rw [← hat]
      exact h.acks hb

theorem runAll (h : r.ClearedAt time) (htime : time ≤ r.now) (ops : List Operation) :
    (Operation.runAll ops r).2.ClearedAt time := by
  induction ops generalizing r with
  | nil => exact h
  | cons op ops ih => exact ih (h.run htime op) (Nat.le_trans htime (Operation.now_le_run op r))

theorem keptWithin (h : r.ClearedAt (r.now / period * period)) (hperiod : 0 < period) :
    r.KeptWithin (r.limits.maxSessionAge + period) (r.limits.maxAckAge + period) := by
  -- no more than a period has passed since its last multiple
  have hlast : r.now < r.now / period * period + period := Nat.lt_div_mul_add hperiod
  refine ⟨?_, ?_⟩
  · intro token used hused
    have hcleared := h.sessions hused
    omega
  · intro token channel id a ha
    have hcleared := h.acks ha
    omega

end Registry.ClearedAt

namespace Operation

variable {ops : List Operation} {r : Registry}

theorem clearedAt_of_swept {m : Moment} (hm : m ∈ history ops r) (hsweep : m.operation = .sweep) :
    (runAll ops r).2.ClearedAt m.time := by
  induction ops generalizing r with
  | nil => cases hm
  | cons op ops ih =>
    rcases List.mem_cons.1 hm with rfl | hm
    · rw [moment_operation] at hsweep
      subst hsweep
      exact (Registry.ClearedAt.of_sweep r).runAll (Nat.le_refl _) ops
    · exact ih hm

theorem keptWithin_of_sweptEvery {period : Nat} (hperiod : 0 < period)
    (hswept : SweptEvery period (history ops r) (runAll ops r).2.now) :
    (runAll ops r).2.KeptWithin (r.limits.maxSessionAge + period)
      (r.limits.maxAckAge + period) := by
  have hcleared : (runAll ops r).2.ClearedAt ((runAll ops r).2.now / period * period) := by
    rcases Nat.eq_zero_or_pos ((runAll ops r).2.now / period) with hzero | hpos
    · rw [hzero, Nat.zero_mul]
      exact .zero _
    · obtain ⟨m, hm, hsweep, htime⟩ := hswept _ hpos (Nat.div_mul_le_self ..)
      rw [← htime]
      exact clearedAt_of_swept hm hsweep
  have hkept := hcleared.keptWithin hperiod
  rwa [limits_runAll] at hkept

end Operation

/-! ## The sweeper -/

namespace Sweeper

variable {s : Sweeper} {op : Operation}

/-! ### How time passes -/

/-- Lets time pass in which no sweep is due. -/
def wait (ms : Nat) (s : Sweeper) : Sweeper := { s with registry := s.registry.advance ms }

theorem act_of_ne_advance (h : ∀ ms, op ≠ .advance ms) : s.act op = s.apply op := by
  cases op <;> first | rfl | exact absurd rfl (h _)

theorem now_tick (h : 0 < s.period) :
    s.tick.registry.now = (s.dueBy s.registry.now + 1) * s.period := by
  have hlast : s.registry.now < s.dueBy s.registry.now * s.period + s.period :=
    Nat.lt_div_mul_add h
  change s.registry.now + ((s.dueBy s.registry.now + 1) * s.period - s.registry.now) = _
  rw [Nat.add_mul, Nat.one_mul]
  omega

@[simp] theorem period_ticks (n : Nat) (s : Sweeper) : (s.ticks n).period = s.period := by
  induction n generalizing s with
  | zero => rfl
  | succ n ih => exact ih s.tick

@[simp] theorem stopped_ticks (n : Nat) (s : Sweeper) : (s.ticks n).stopped = s.stopped := by
  induction n generalizing s with
  | zero => rfl
  | succ n ih => exact ih s.tick

@[simp] theorem ticks_dueBy (n time : Nat) (s : Sweeper) :
    (s.ticks n).dueBy time = s.dueBy time := by
  rw [dueBy, period_ticks, dueBy]

theorem ticks_add (m n : Nat) (s : Sweeper) : s.ticks (m + n) = (s.ticks m).ticks n := by
  induction m generalizing s with
  | zero => rw [Nat.zero_add]; rfl
  | succ m ih => rw [Nat.succ_add]; exact ih s.tick

theorem now_ticks_succ (h : 0 < s.period) (n : Nat) :
    (s.ticks (n + 1)).registry.now = (s.dueBy s.registry.now + (n + 1)) * s.period := by
  induction n generalizing s with
  | zero => exact now_tick h
  | succ n ih =>
    have hdue : s.tick.dueBy s.tick.registry.now = s.dueBy s.registry.now + 1 := by
      rw [now_tick h]
      exact Nat.mul_div_cancel _ h
    change (s.tick.ticks (n + 1)).registry.now = _
    rw [ih (s := s.tick) h, hdue]
    change (s.dueBy s.registry.now + 1 + (n + 1)) * s.period = _
    rw [Nat.add_right_comm, Nat.add_assoc]

theorem dueBy_ticks (h : 0 < s.period) (n : Nat) :
    s.dueBy (s.ticks n).registry.now = s.dueBy s.registry.now + n := by
  cases n with
  | zero => rfl
  | succ n =>
    rw [now_ticks_succ h]
    exact Nat.mul_div_cancel _ h

/-- The sweeps that are due by some time take no longer than that. -/
theorem now_ticks_le (h : 0 < s.period) {n time : Nat} (hnow : s.registry.now ≤ time)
    (hn : s.dueBy s.registry.now + n ≤ s.dueBy time) : (s.ticks n).registry.now ≤ time := by
  cases n with
  | zero => exact hnow
  | succ n =>
    rw [now_ticks_succ h]
    exact Nat.le_trans (Nat.mul_le_mul_right _ hn) (Nat.div_mul_le_self time s.period)

theorem dueBy_mono (s : Sweeper) {a b : Nat} (h : a ≤ b) : s.dueBy a ≤ s.dueBy b :=
  Nat.div_le_div_right h

/-- Lets time pass up to some time, with the sweeps that are due. -/
def upTo (time : Nat) (s : Sweeper) : Sweeper :=
  let swept := s.ticks (s.dueBy time - s.dueBy s.registry.now)
  swept.wait (time - swept.registry.now)

theorem sleep_of_stopped (h : s.stopped = true) (ms : Nat) : s.sleep ms = s.wait ms := by
  simp only [sleep, wait, h, if_true, Nat.add_sub_cancel_left]

theorem sleep_of_running (h : s.stopped = false) (ms : Nat) :
    s.sleep ms = s.upTo (s.registry.now + ms) := by
  simp only [sleep, upTo, wait, h, Bool.false_eq_true, if_false]

/-- After the sweeps that are due what is left of the time is waited for, and no sweep is due in it.
-/
theorem upTo_eq_wait (h : 0 < s.period) {time : Nat} (hnow : s.registry.now ≤ time) :
    ∃ t ms, t = s.ticks (s.dueBy time - s.dueBy s.registry.now) ∧ s.upTo time = t.wait ms ∧
      t.registry.now + ms = time ∧ t.dueBy (t.registry.now + ms) = t.dueBy t.registry.now := by
  have hmono := s.dueBy_mono hnow
  have hle := now_ticks_le h hnow (n := s.dueBy time - s.dueBy s.registry.now) (by omega)
  refine ⟨_, _, rfl, rfl, Nat.add_sub_cancel' hle, ?_⟩
  rw [Nat.add_sub_cancel' hle, ticks_dueBy, ticks_dueBy, dueBy_ticks h]
  omega

theorem now_upTo (h : 0 < s.period) {time : Nat} (hnow : s.registry.now ≤ time) :
    (s.upTo time).registry.now = time := by
  obtain ⟨t, ms, -, hupTo, htime, -⟩ := upTo_eq_wait h hnow
  rw [hupTo]
  exact htime

theorem now_sleep (h : 0 < s.period) (ms : Nat) :
    (s.sleep ms).registry.now = s.registry.now + ms := by
  cases hstopped : s.stopped with
  | true => rw [sleep_of_stopped hstopped]; rfl
  | false => rw [sleep_of_running hstopped, now_upTo h (Nat.le_add_right ..)]

theorem wait_wait (a b : Nat) (s : Sweeper) : (s.wait a).wait b = s.wait (a + b) := by
  simp only [wait, Registry.advance, Nat.add_assoc]

theorem tick_wait {ms : Nat} (h : 0 < s.period)
    (hdue : s.dueBy (s.registry.now + ms) = s.dueBy s.registry.now) :
    (s.wait ms).tick = s.tick := by
  have hlast : s.registry.now + ms < (s.dueBy s.registry.now + 1) * s.period := by
    rw [← hdue, Nat.add_mul, Nat.one_mul]
    exact Nat.lt_div_mul_add h
  have hrest : ms + ((s.dueBy s.registry.now + 1) * s.period - (s.registry.now + ms)) =
      (s.dueBy s.registry.now + 1) * s.period - s.registry.now := by omega
  have hnow : (s.wait ms).dueBy (s.wait ms).registry.now = s.dueBy s.registry.now := hdue
  have hboth : (s.wait ms).registry.advance
        ((s.dueBy s.registry.now + 1) * s.period - (s.registry.now + ms)) =
      s.registry.advance ((s.dueBy s.registry.now + 1) * s.period - s.registry.now) := by
    rw [← hrest]
    exact congrArg registry (wait_wait ms _ s)
  unfold tick
  rw [hnow]
  exact congrArg (fun r : Registry => { s with registry := r.sweep.2 }) hboth

/-- To wait before the next sweep is to wait less for it. -/
theorem ticks_wait {ms time : Nat} (h : 0 < s.period)
    (hdue : s.dueBy (s.registry.now + ms) = s.dueBy s.registry.now)
    (htime : s.registry.now + ms ≤ time) (n : Nat) :
    ((s.wait ms).ticks n).wait (time - ((s.wait ms).ticks n).registry.now) =
      (s.ticks n).wait (time - (s.ticks n).registry.now) := by
  cases n with
  | zero =>
    change (s.wait ms).wait (time - (s.registry.now + ms)) = s.wait (time - s.registry.now)
    rw [wait_wait]
    congr 1
    omega
  | succ n =>
    change ((s.wait ms).tick.ticks n).wait (time - ((s.wait ms).tick.ticks n).registry.now) = _
    rw [tick_wait h hdue]
    rfl

theorem upTo_upTo (h : 0 < s.period) {a b : Nat} (ha : s.registry.now ≤ a) (hb : a ≤ b) :
    (s.upTo a).upTo b = s.upTo b := by
  obtain ⟨t, ms, ht, hupTo, rfl, hdue⟩ := upTo_eq_wait h ha
  have hmono := s.dueBy_mono ha
  have hmono' := s.dueBy_mono hb
  have hsum : s.dueBy b - s.dueBy s.registry.now =
      s.dueBy (t.registry.now + ms) - s.dueBy s.registry.now +
        (s.dueBy b - s.dueBy (t.registry.now + ms)) := by omega
  have hperiod : t.period = s.period := by rw [ht, period_ticks]
  have hcount : (t.wait ms).dueBy b - (t.wait ms).dueBy (t.wait ms).registry.now =
      s.dueBy b - s.dueBy (t.registry.now + ms) := by
    simp only [dueBy, wait, Registry.advance, hperiod]
  rw [hupTo]
  calc (t.wait ms).upTo b
      = ((t.wait ms).ticks (s.dueBy b - s.dueBy (t.registry.now + ms))).wait (b -
          ((t.wait ms).ticks (s.dueBy b - s.dueBy (t.registry.now + ms))).registry.now) := by
        simp only [upTo, hcount]
    _ = (t.ticks (s.dueBy b - s.dueBy (t.registry.now + ms))).wait
          (b - (t.ticks (s.dueBy b - s.dueBy (t.registry.now + ms))).registry.now) :=
        ticks_wait (hperiod ▸ h) hdue hb _
    _ = s.upTo b := by
        simp only [upTo, hsum, ticks_add, ← ht]

/-- It makes no difference in how many pieces time passes. -/
theorem sleep_add (h : 0 < s.period) (a b : Nat) : (s.sleep a).sleep b = s.sleep (a + b) := by
  cases hstopped : s.stopped with
  | true =>
    rw [sleep_of_stopped hstopped, sleep_of_stopped (s := s.wait a) hstopped,
      sleep_of_stopped hstopped, wait_wait]
  | false =>
    have hrunning : (s.upTo (s.registry.now + a)).stopped = false := by
      change (s.ticks _).stopped = false
      rw [stopped_ticks, hstopped]
    rw [sleep_of_running hstopped, sleep_of_running hrunning, sleep_of_running hstopped,
      now_upTo h (Nat.le_add_right ..), upTo_upTo h (Nat.le_add_right ..) (Nat.le_add_right ..),
      Nat.add_assoc]

/-! ### What is kept -/

/-- A sweeper that goes on, with these limits and at most this period, and that has done all sweeps
up to the present. -/
structure Timely (limits : Limits) (period : Nat) (s : Sweeper) : Prop where
  limits_eq : s.registry.limits = limits
  period_pos : 0 < s.period
  period_le : s.period ≤ period
  running : s.stopped = false
  cleared : s.registry.ClearedAt (s.dueBy s.registry.now * s.period)

namespace Timely

variable {limits : Limits} {period : Nat}

theorem start (limits : Limits) (h : 0 < period) :
    (Sweeper.start limits period).Timely limits period := by
  refine ⟨rfl, h, Nat.le_refl period, decide_eq_false (Nat.ne_of_gt h), ?_⟩
  · have hzero : (Sweeper.start limits period).dueBy 0 = 0 := Nat.zero_div _
    change Registry.ClearedAt ((Sweeper.start limits period).dueBy 0 * _) _
    rw [hzero, Nat.zero_mul]
    exact .zero _

theorem apply (h : s.Timely limits period) (hop : ∀ ms, op ≠ .advance ms) :
    (s.apply op).2.Timely limits period := by
  refine ⟨(Operation.limits_run op s.registry).trans h.limits_eq, h.period_pos, h.period_le,
    h.running, ?_⟩
  change (op.run s.registry).2.ClearedAt (s.dueBy (op.run s.registry).2.now * s.period)
  rw [Operation.now_run_of_ne_advance hop]
  exact h.cleared.run (Nat.div_mul_le_self ..) op

theorem tick (h : s.Timely limits period) : s.tick.Timely limits period := by
  refine ⟨h.limits_eq, h.period_pos, h.period_le, h.running, ?_⟩
  have hcleared : s.tick.registry.ClearedAt s.tick.registry.now :=
    .of_sweep (s.registry.advance ((s.dueBy s.registry.now + 1) * s.period - s.registry.now))
  have hdue : s.dueBy s.tick.registry.now = s.dueBy s.registry.now + 1 := dueBy_ticks h.period_pos 1
  change s.tick.registry.ClearedAt (s.dueBy s.tick.registry.now * s.period)
  rwa [hdue, ← now_tick h.period_pos]

theorem ticks (h : s.Timely limits period) (n : Nat) : (s.ticks n).Timely limits period := by
  induction n generalizing s with
  | zero => exact h
  | succ n ih => exact ih h.tick

theorem wait {ms : Nat} (h : s.Timely limits period)
    (hdue : s.dueBy (s.registry.now + ms) = s.dueBy s.registry.now) :
    (s.wait ms).Timely limits period := by
  refine ⟨h.limits_eq, h.period_pos, h.period_le, h.running, ?_⟩
  change (s.registry.advance ms).ClearedAt (s.dueBy (s.registry.now + ms) * s.period)
  rw [hdue]
  exact ⟨h.cleared.sessions, h.cleared.acks⟩

theorem sleep (h : s.Timely limits period) (ms : Nat) : (s.sleep ms).Timely limits period := by
  obtain ⟨t, rest, ht, hupTo, -, hdue⟩ := upTo_eq_wait h.period_pos (Nat.le_add_right _ ms)
  rw [sleep_of_running h.running, hupTo]
  have hticks : t.Timely limits period := ht ▸ h.ticks _
  exact hticks.wait hdue

theorem act (h : s.Timely limits period) (op : Operation) :
    (s.act op).2.Timely limits period := by
  by_cases hop : ∃ ms, op = .advance ms
  · obtain ⟨ms, rfl⟩ := hop
    exact h.sleep ms
  · have hne : ∀ ms, op ≠ .advance ms := fun ms heq => hop ⟨ms, heq⟩
    rw [act_of_ne_advance hne]
    exact h.apply hne

theorem runAll (h : s.Timely limits period) (ops : List Operation) :
    (Sweeper.runAll ops s).2.Timely limits period := by
  induction ops generalizing s with
  | nil => exact h
  | cons op ops ih => exact ih (h.act op)

theorem keptWithin (h : s.Timely limits period) :
    s.registry.KeptWithin (limits.maxSessionAge + period) (limits.maxAckAge + period) := by
  have hkept := h.cleared.keptWithin h.period_pos
  have hle := h.period_le
  rw [h.limits_eq] at hkept
  refine ⟨?_, ?_⟩
  · intro token used hused
    have hbound := hkept.sessions hused
    omega
  · intro token channel id a ha
    have hbound := hkept.acks ha
    omega

end Timely

/-! ### What is forgotten -/

theorem fadesTo_tick {sweeps : Nat → Prop} (hperiod : 0 < s.period)
    (h : sweeps ((s.dueBy s.registry.now + 1) * s.period)) :
    FadesTo sweeps s.registry s.tick.registry := by
  rw [← now_tick hperiod] at h
  exact (FadesTo.advance _ s.registry).trans (.sweep h)

theorem fadesTo_ticks {sweeps : Nat → Prop} (hperiod : 0 < s.period) {n : Nat}
    (h : ∀ k, s.dueBy s.registry.now < k → k ≤ s.dueBy s.registry.now + n →
      sweeps (k * s.period)) :
    FadesTo sweeps s.registry (s.ticks n).registry := by
  induction n with
  | zero => exact .advance 0 s.registry
  | succ n ih =>
    have hfirst : FadesTo sweeps s.registry (s.ticks n).registry := by
      apply ih
      intro k hlt hle
      exact h k hlt (Nat.le_succ_of_le hle)
    have hlast : FadesTo sweeps (s.ticks n).registry (s.ticks n).tick.registry := by
      apply fadesTo_tick
      · rwa [period_ticks]
      · rw [ticks_dueBy, dueBy_ticks hperiod, period_ticks]
        exact h _ (by omega) (by omega)
    rw [ticks_add]
    exact hfirst.trans hlast

theorem neverEarly_act (h : 0 < s.period) (op : Operation) :
    NeverEarly op (s.SweepsAt op) s.registry (s.act op).2.registry := by
  by_cases hop : ∃ ms, op = .advance ms
  · obtain ⟨ms, rfl⟩ := hop
    apply FadesTo.neverEarly
    cases hstopped : s.stopped with
    | true =>
      change FadesTo _ s.registry (s.sleep ms).registry
      rw [sleep_of_stopped hstopped]
      exact .advance ms s.registry
    | false =>
      have hend : (s.act (.advance ms)).2.registry.now = s.registry.now + ms := now_sleep h ms
      obtain ⟨t, rest, rfl, hupTo, -, -⟩ := upTo_eq_wait h (Nat.le_add_right s.registry.now ms)
      change FadesTo _ s.registry (s.sleep ms).registry
      rw [sleep_of_running hstopped, hupTo]
      refine FadesTo.trans (fadesTo_ticks h ?_) (.advance rest _)
      intro k hlt hle
      have hmono := s.dueBy_mono (Nat.le_add_right s.registry.now ms)
      refine .inr ⟨Nat.dvd_mul_left .., ?_, ?_⟩
      · exact (Nat.div_lt_iff_lt_mul h).1 hlt
      · rw [hend]
        exact (Nat.le_div_iff_mul_le h).1 (show k ≤ s.dueBy _ by omega)
  · rw [act_of_ne_advance fun ms heq => hop ⟨ms, heq⟩]
    exact (Operation.neverEarly_run op s.registry).mono fun time => .inl

/-- Without its sweeps a sweeper is nothing but its registry. -/
theorem runAll_of_stopped (h : s.stopped = true) (ops : List Operation) :
    (runAll ops s).1 = (Operation.runAll ops s.registry).1 ∧
      (runAll ops s).2.registry = (Operation.runAll ops s.registry).2 := by
  induction ops generalizing s with
  | nil => exact ⟨rfl, rfl⟩
  | cons op ops ih =>
    have hact : s.act op = s.apply op := by
      cases op with
      | advance ms => exact congrArg (Prod.mk Answer.done) (sleep_of_stopped h ms)
      | _ => rfl
    obtain ⟨hanswers, hregistry⟩ := ih (s := (s.apply op).2) h
    rw [runAll, hact]
    exact ⟨congrArg _ hanswers, hregistry⟩

end Sweeper

/-- Where there was a sweep at each multiple of the period so far, no session was left unused and no
id has been waiting for longer than the age that is allowed and one period, and an operation takes
away early neither a session nor an id. The sweeper does these sweeps, in whatever pieces time
passes, until it is cancelled. From then on everything is as without it. -/
theorem swept_on_time (limits : Limits) {period : Nat} (hperiod : 0 < period)
    (ops : List Operation) :
    let r := (Operation.runAll ops { limits }).2
    let s := (Sweeper.runAll ops (.start limits period)).2
    ((SweptEvery period (Operation.history ops { limits }) r.now →
        r.KeptWithin (limits.maxSessionAge + period) (limits.maxAckAge + period)) ∧
      ∀ op, NeverEarly op (fun time => op = .sweep ∧ time = r.now) r (op.run r).2) ∧
    s.registry.KeptWithin (limits.maxSessionAge + period) (limits.maxAckAge + period) ∧
    (∀ op, NeverEarly op (s.SweepsAt op) s.registry (s.act op).2.registry) ∧
    (∀ ms ms', (s.sleep ms).sleep ms' = s.sleep (ms + ms')) ∧
    ∀ later,
      (Sweeper.runAll later s.cancel).1 = (Operation.runAll later s.registry).1 ∧
        (Sweeper.runAll later s.cancel).2.registry = (Operation.runAll later s.registry).2 := by
  intro r s
  have htimely : s.Timely limits period := (Sweeper.Timely.start limits hperiod).runAll ops
  refine ⟨⟨?_, fun op => Operation.neverEarly_run op r⟩, htimely.keptWithin, ?_, ?_, ?_⟩
  · intro hswept
    exact Operation.keptWithin_of_sweptEvery hperiod hswept
  · exact Sweeper.neverEarly_act htimely.period_pos
  · exact Sweeper.sleep_add htimely.period_pos
  · exact Sweeper.runAll_of_stopped (s := s.cancel) rfl

/-- Limits under which sessions and ids grow old soon. -/
def shortAges : Limits := { maxAckAge := 10, maxSessionAge := 10 }

/-- A session is used at the very time of a sweep, before it, and then left alone. -/
def usedAtSweep : List Operation :=
  [.registerAck "t" "c" 0, .advance 20, .ensureSession "t", .sweep, .advance 10]

theorem sweptEvery_usedAtSweep :
    SweptEvery 20 (Operation.history usedAtSweep { limits := shortAges }) 30 := by
  intro k hk hdue
  obtain rfl : k = 1 := by omega
  have hplace := Operation.getElem?_history usedAtSweep { limits := shortAges } 3
  have htime : (Operation.stateAt usedAtSweep { limits := shortAges } 3).now = 20 := by
    decide +kernel
  exact ⟨_, List.mem_of_getElem? hplace, rfl, htime⟩

theorem swept_on_time_usedAtSweep :
    let r := (Operation.runAll usedAtSweep { limits := shortAges }).2
    let s := (Sweeper.runAll usedAtSweep (.start shortAges 20)).2
    r.KeptWithin 30 30 ∧ s.registry.KeptWithin 30 30 ∧
      NeverEarly (.advance 30) (s.SweepsAt (.advance 30)) s.registry
        (s.act (.advance 30)).2.registry ∧
      (Sweeper.runAll [.advance 30] s.cancel).2.registry =
        (Operation.runAll [.advance 30] s.registry).2 := by
  intro r s
  have hnow : r.now = 30 := by decide +kernel
  obtain ⟨⟨hkept, -⟩, hkept', hearly, -, hcancel⟩ :=
    swept_on_time shortAges (by decide : 0 < 20) usedAtSweep
  refine ⟨hkept ?_, hkept', hearly _, (hcancel _).2⟩
  rw [hnow]
  exact sweptEvery_usedAtSweep

end EventRelay.Ack
