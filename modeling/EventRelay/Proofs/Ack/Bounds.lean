import EventRelay.Proofs.Ack.Ownership

/-!
# What bounds a registry

A registry keeps to its limits and holds nothing from the future (`Registry.Sound`): there are at
most so many sessions, a channel holds at most so many ids, an id is filed under itself and was
registered no later than its session was last used, and no session was used after the present.
Every operation keeps this, also one that is refused, because admission is checked before anything
is added and every use of a session is noted (`Registry.Sound.run`).

The counter of a channel bounds its ids only if clients register nothing but what they were given
since the session was opened (`RegistersIssued`). Then every id that waits is below the counter,
and `bounds_runAll` puts both together.
-/

namespace EventRelay.Ack

theorem Table.size_insert_eq {α β : Type} [Ord α] [Std.TransOrd α] (t : Table α β) (k : α) (v : β) :
    (t.insert k v).size = if t[k]?.isSome then t.size else t.size + 1 := by
  rw [Std.ExtTreeMap.size_insert, Std.ExtTreeMap.contains_eq_isSome_getElem?]

/-! ## Channels -/

/-- A channel that holds no more ids than it may, each under itself and registered by then. -/
structure Channel.Sound (limits : Limits) (used : Nat) (c : Channel) : Prop where
  size_le : c.acks.size ≤ limits.maxAcks
  id_eq : ∀ {id : Nat} {a : Ack}, c.acks[id]? = some a → a.id = id
  registered_le : ∀ {id : Nat} {a : Ack}, c.acks[id]? = some a → a.registeredAt ≤ used

namespace Channel.Sound

variable {limits : Limits} {used id : Nat} {c c' : Channel}

theorem empty (limits : Limits) (used : Nat) : Channel.Sound limits used {} := by
  refine ⟨?_, ?_, ?_⟩
  · simp
  · intro id a h
    simp at h
  · intro id a h
    simp at h

theorem mono {used' : Nat} (h : c.Sound limits used) (hle : used ≤ used') :
    c.Sound limits used' :=
  ⟨h.size_le, h.id_eq, fun ha => Nat.le_trans (h.registered_le ha) hle⟩

/-- A channel without new ids and without new times is as sound as before. -/
theorem of_entries (h : c.Sound limits used) (hsize : c'.acks.size ≤ c.acks.size)
    (hentries : ∀ {id : Nat} {a : Ack}, c'.acks[id]? = some a →
      ∃ a₀, c.acks[id]? = some a₀ ∧ a.id = a₀.id ∧ a.registeredAt = a₀.registeredAt) :
    c'.Sound limits used := by
  refine ⟨Nat.le_trans hsize h.size_le, ?_, ?_⟩
  · intro id a ha
    obtain ⟨a₀, ha₀, hid, -⟩ := hentries ha
    rw [hid, h.id_eq ha₀]
  · intro id a ha
    obtain ⟨a₀, ha₀, -, hat⟩ := hentries ha
    rw [hat]
    exact h.registered_le ha₀

theorem issue (h : c.Sound limits used) : c.issue.2.Sound limits used :=
  ⟨h.size_le, h.id_eq, h.registered_le⟩

theorem register (h : c.Sound limits used) (id : Nat) :
    (c.register limits.maxAcks used id).2.Sound limits used := by
  cases hx : (c.register limits.maxAcks used id).1 with
  | error e => rwa [Channel.register_error hx]
  | ok u =>
    have hacks := Channel.acks_register_ok hx
    have hentry : ∀ {id' : Nat} {a : Ack},
        (c.register limits.maxAcks used id).2.acks[id']? = some a →
          a = ⟨id', false, used⟩ ∨ c.acks[id']? = some a := by
      intro id' a ha
      rw [hacks, Table.getElem?_insert_eq] at ha
      split at ha
      · next heq =>
        subst heq
        exact .inl (Option.some.inj ha).symm
      · exact .inr ha
    refine ⟨?_, ?_, ?_⟩
    · -- a new id is admitted only where there is room
      unfold Channel.register at hx
      split at hx
      · cases hx
      · next hroom =>
        have hsize := h.size_le
        rw [hacks, Table.size_insert_eq]
        split
        · exact hsize
        · next hnew =>
          have hnone : (c.acks[id]?).isNone = true := by simpa using hnew
          have hlt : c.acks.size < limits.maxAcks :=
            Nat.lt_of_not_le fun hfull => hroom ⟨hnone, hfull⟩
          exact hlt
    · intro id' a ha
      rcases hentry ha with rfl | ha
      · rfl
      · exact h.id_eq ha
    · intro id' a ha
      rcases hentry ha with rfl | ha
      · exact Nat.le_refl used
      · exact h.registered_le ha

theorem acknowledge (h : c.Sound limits used) (id : Nat) :
    (c.acknowledge id).2.Sound limits used := by
  apply h.of_entries
  · unfold Channel.acknowledge
    split
    · next a ha =>
      have hmem : c.acks[id]?.isSome = true := by rw [ha]; rfl
      exact Nat.le_of_eq (by rw [Table.size_insert_eq, if_pos hmem])
    · exact Nat.le_refl _
  · intro id' a ha
    rw [Channel.acks_acknowledge] at ha
    split at ha
    · obtain ⟨a₀, ha₀, rfl⟩ := Option.map_eq_some_iff.1 ha
      exact ⟨a₀, ha₀, rfl, rfl⟩
    · exact ⟨a, ha, rfl, rfl⟩

theorem forget (h : c.Sound limits used) (id : Nat) : (c.forget id).2.Sound limits used := by
  apply h.of_entries
  · exact Std.ExtTreeMap.size_erase_le
  · intro id' a ha
    rw [Channel.acks_forget] at ha
    split at ha
    · cases ha
    · exact ⟨a, ha, rfl, rfl⟩

theorem report (h : c.Sound limits used) (ids : List Int) (found : Statuses) :
    (c.report ids found).2.Sound limits used := by
  induction ids generalizing found c with
  | nil => exact h
  | cons named ids ih =>
    cases named with
    | ofNat id => exact ih (h.forget id) _
    | negSucc n => exact ih h _

theorem expire (h : c.Sound limits used) (now maxAge : Nat) :
    (c.expire now maxAge).Sound limits used := by
  apply h.of_entries
  · exact Std.ExtTreeMap.size_filter_le_size
  · intro id a ha
    rw [Channel.acks_expire, Option.filter_eq_some_iff] at ha
    exact ⟨a, ha.1, rfl, rfl⟩

end Channel.Sound

/-! ## Registries -/

/-- A session that was not used after the present, with sound channels. -/
structure Session.Sound (limits : Limits) (now : Nat) (s : Session) : Prop where
  used_le : s.lastAccess ≤ now
  channels : ∀ {channel : String} {c : Channel}, s.channels[channel]? = some c →
    c.Sound limits s.lastAccess

/-- A registry with no more sessions than it may have, all of them sound. -/
structure Registry.Sound (r : Registry) : Prop where
  size_le : r.sessionCount ≤ r.limits.maxSessions
  sessions : ∀ {token : String} {s : Session}, r.sessions[token]? = some s →
    s.Sound r.limits r.now

namespace Registry.Sound

variable {r : Registry} {token channel : String} {s : Session} {α : Type}

theorem empty (limits : Limits) (now : Nat) : Registry.Sound { limits, now } := by
  refine ⟨?_, ?_⟩
  · simp [sessionCount]
  · intro token s hs
    simp at hs

theorem advance (h : r.Sound) (ms : Nat) : (r.advance ms).Sound := by
  refine ⟨h.size_le, ?_⟩
  intro token s hs
  have hsound := h.sessions hs
  exact ⟨Nat.le_trans hsound.used_le (Nat.le_add_right ..), hsound.channels⟩

/-- A session can be put in its place if it has one or there is room. -/
theorem put (h : r.Sound)
    (hroom : r.sessions[token]?.isSome = true ∨ r.sessionCount < r.limits.maxSessions)
    (hchannels : ∀ {channel : String} {c : Channel}, s.channels[channel]? = some c →
      c.Sound r.limits r.now) :
    (r.put token s).Sound := by
  refine ⟨?_, ?_⟩
  · have hsize := h.size_le
    change (r.sessions.insert token _).size ≤ r.limits.maxSessions
    rw [Table.size_insert_eq]
    split
    · exact hsize
    · next hnew =>
      rcases hroom with hmem | hlt
      · exact absurd hmem hnew
      · exact hlt
  · intro token' s' hs'
    rw [sessions_put] at hs'
    split at hs'
    · obtain rfl := Option.some.inj hs'
      exact ⟨Nat.le_refl _, hchannels⟩
    · exact h.sessions hs'

theorem channels_of_getElem? (h : r.Sound) (hs : r.sessions[token]? = some s) {c : Channel}
    (hc : s.channels[channel]? = some c) : c.Sound r.limits r.now :=
  ((h.sessions hs).channels hc).mono (h.sessions hs).used_le

/-- A session is opened only where there is room, and without channels. -/
theorem of_session_ok (h : r.Sound) (hs : r.session token = .ok s) :
    (r.sessions[token]?.isSome = true ∨ r.sessionCount < r.limits.maxSessions) ∧
      ∀ {channel : String} {c : Channel}, s.channels[channel]? = some c →
        c.Sound r.limits r.now := by
  unfold session at hs
  split at hs
  · next s' hlive =>
    cases hs
    refine ⟨.inl ?_, h.channels_of_getElem? hlive⟩
    rw [hlive]
    rfl
  · split at hs
    · cases hs
    · next hroom =>
      cases hs
      refine ⟨.inr (Nat.lt_of_not_le hroom), ?_⟩
      intro channel c hc
      simp at hc

theorem ensureSession (h : r.Sound) (token : String) : (r.ensureSession token).2.Sound := by
  unfold Registry.ensureSession
  split
  · next s hs =>
    obtain ⟨hroom, hchannels⟩ := h.of_session_ok hs
    exact h.put hroom hchannels
  · exact h

/-- What keeps a channel sound just now keeps the registry sound, if the channel is opened for it.
-/
theorem onChannel {f : Channel → Except Refusal α × Channel} (h : r.Sound)
    (hf : ∀ c : Channel, c.Sound r.limits r.now → (f c).2.Sound r.limits r.now) :
    (r.onChannel token channel f).2.Sound := by
  cases hs : r.session token with
  | error e => rwa [onChannel_of_error hs]
  | ok s =>
    obtain ⟨hroom, hchannels⟩ := h.of_session_ok hs
    unfold Registry.onChannel
    rw [hs]
    apply h.put hroom
    intro channel' c hc
    rw [Table.getElem?_insert_eq] at hc
    split at hc
    · obtain rfl := Option.some.inj hc
      apply hf
      cases hold : s.channels[channel]? with
      | none => exact .empty r.limits r.now
      | some c₀ => exact hchannels hold
    · exact hchannels hc

/-- What keeps a channel sound just now keeps the registry sound, if the channel exists. -/
theorem onExisting {absent : α} {f : Channel → α × Channel} (h : r.Sound)
    (hf : ∀ c : Channel, c.Sound r.limits r.now → (f c).2.Sound r.limits r.now) :
    (r.onExisting token channel absent f).2.Sound := by
  unfold Registry.onExisting
  split
  · exact h
  · next s hs =>
    have hplace : r.sessions[token]?.isSome = true := by rw [hs]; rfl
    split
    · exact h.put (.inl hplace) (h.channels_of_getElem? hs)
    · next c₀ hc₀ =>
      apply h.put (.inl hplace)
      intro channel' c hc
      rw [Table.getElem?_insert_eq] at hc
      split at hc
      · obtain rfl := Option.some.inj hc
        exact hf c₀ (h.channels_of_getElem? hs hc₀)
      · exact h.channels_of_getElem? hs hc

theorem report (h : r.Sound) (token channel : String) (query : Json) :
    (r.report token channel query).2.Sound := by
  unfold Registry.report
  split
  · exact h
  · exact h
  · next ids _ =>
    split
    · exact h
    · exact h.onExisting fun c hc => hc.report ids .empty

theorem sweep (h : r.Sound) : r.sweep.2.Sound := by
  refine ⟨?_, ?_⟩
  · have hsize := h.size_le
    have hkept : r.sweep.2.sessionCount ≤ r.sessionCount := by
      simp only [sessionCount, Registry.sweep, expireAcks, dropIdle, Std.ExtTreeMap.size_map]
      exact Std.ExtTreeMap.size_filter_le_size
    exact Nat.le_trans hkept hsize
  · intro token s hs
    rw [sessions_sweep, Option.map_eq_some_iff] at hs
    obtain ⟨s₀, hs₀, rfl⟩ := hs
    have hsound := h.sessions (Option.filter_eq_some_iff.1 hs₀).1
    refine ⟨hsound.used_le, ?_⟩
    intro channel c hc
    simp only [Session.expire, Std.ExtTreeMap.getElem?_map, Option.map_eq_some_iff] at hc
    obtain ⟨c₀, hc₀, rfl⟩ := hc
    exact (hsound.channels hc₀).expire ..

/-- Every operation keeps a registry sound, whatever it answers. -/
theorem run (h : r.Sound) (op : Operation) : (op.run r).2.Sound := by
  cases op with
  | ensureSession t => exact h.ensureSession t
  | ensureChannel t c => exact h.onChannel fun _ hc => hc
  | nextAckId t c => exact h.onChannel fun _ hc => hc.issue
  | registerAck t c id => exact h.onChannel fun _ hc => hc.register id
  | markAcknowledged t c id => exact h.onExisting (α := Bool) fun _ hc => hc.acknowledge id
  | isAcknowledged t c id => exact h.onExisting (α := Bool) fun _ hc => hc
  | deleteAck t c id => exact h.onExisting (α := Bool) fun _ hc => hc.forget id
  | listAcks t c => exact h.onExisting (α := List (Nat × Ack)) fun _ hc => hc
  | ackCount t c => exact h.onExisting (α := Nat) fun _ hc => hc
  | report t c query => exact h.report t c query
  | sweep => exact h.sweep
  | advance ms => exact h.advance ms

theorem runAll (h : r.Sound) (ops : List Operation) : (Operation.runAll ops r).2.Sound := by
  induction ops generalizing r with
  | nil => exact h
  | cons op ops ih => exact ih (h.run op)

end Registry.Sound

/-! ## Counters -/

/-- Whatever is registered on a channel was issued on it before, by a session that was not evicted
in between. -/
def RegistersIssued (limits : Limits) (token channel : String) (h : List Moment) : Prop :=
  ∀ (j : Nat) (m : Moment) (id : Nat), h[j]? = some m →
    m.operation = .registerAck token channel id →
    ∃ i m', i < j ∧ h[i]? = some m' ∧ m'.Issues token channel id ∧
      ¬ EvictedBetween limits token h i j

/-- Where only issued ids are registered, what waits is below the counter. -/
theorem lt_counter_of_waiting? {limits : Limits} {now : Nat} {ops : List Operation}
    {token channel : String} {id : Nat} {a : Ack}
    (hissued : RegistersIssued limits token channel (Operation.history ops { limits, now }))
    (ha : (Operation.runAll ops { limits, now }).2.waiting? token channel id = some a) :
    id < (Operation.runAll ops { limits, now }).2.counter token channel := by
  have hall : Operation.stateAt ops { limits, now } ops.length =
      (Operation.runAll ops { limits, now }).2 := by
    rw [Operation.stateAt, List.take_length]
  have hlength : (Operation.history ops { limits, now }).length = ops.length := length_history ops _
  obtain ⟨j, m, hheld, -⟩ := (Agrees.runAll limits now ops).held_of_entry ha
  rw [Operation.limits_runAll] at hheld
  have hj := lt_length_of_getElem? hheld.here
  obtain ⟨i, m', hij, hi, hm', hkept⟩ := hissued j m id hheld.here hheld.registers.1
  -- the session lives from the issue to the registration, and from there to the end
  have hlives : ¬ EvictedBetween limits token (Operation.history ops { limits, now }) i
      ops.length := by
    rintro ⟨k, n, hik, hk, hn, hevicts⟩
    rcases Nat.lt_or_ge k j with hkj | hjk
    · exact hkept ⟨k, n, hik, hkj, hn, hevicts⟩
    · have hwhole : (Operation.history ops { limits, now }).take ops.length =
          Operation.history ops { limits, now } := by
        rw [← hlength, List.take_length]
      rw [← hwhole] at hheld
      exact hheld.not_evicted ⟨k, n, hjk, hk, hn, hevicts⟩
  rw [hlength] at hj
  rw [← hall]
  exact (live_since_issue hi hm' (Nat.lt_trans hij hj) (Nat.le_refl _) hlives).2

/-- After every run from an empty registry there are no more sessions and no more ids in a channel
than the limits allow, every id is filed under itself and was registered no later than its session
was last used, which is not after the present; and where only ids are registered that were issued
by the session that lives, every id that waits is below the counter of its channel. -/
theorem bounds_runAll (limits : Limits) (now : Nat) (ops : List Operation) :
    let r := (Operation.runAll ops { limits, now }).2
    r.sessionCount ≤ limits.maxSessions ∧
      ∀ token s, r.sessions[token]? = some s →
        s.lastAccess ≤ r.now ∧
        ∀ channel c, s.channels[channel]? = some c →
          c.acks.size ≤ limits.maxAcks ∧
          (∀ (id : Nat) (a : Ack), c.acks[id]? = some a →
            a.id = id ∧ a.registeredAt ≤ s.lastAccess) ∧
          (RegistersIssued limits token channel (Operation.history ops { limits, now }) →
            ∀ (id : Nat) (a : Ack), c.acks[id]? = some a → id < c.nextId) := by
  intro r
  have hsound : r.Sound := (Registry.Sound.empty limits now).runAll ops
  have hlimits : r.limits = limits := Operation.limits_runAll ops _
  refine ⟨hlimits ▸ hsound.size_le, ?_⟩
  intro token s hs
  have hsession := hsound.sessions hs
  refine ⟨hsession.used_le, ?_⟩
  intro channel c hc
  have hchannel := hsession.channels hc
  have hplace : r.channel? token channel = some c := by
    rw [Registry.channel?, hs]
    exact hc
  refine ⟨hlimits ▸ hchannel.size_le, fun id a ha => ⟨hchannel.id_eq ha, hchannel.registered_le ha⟩,
    ?_⟩
  intro hissued id a ha
  have hwaits : r.waiting? token channel id = some a := by
    rw [Registry.waiting?, hplace]
    exact ha
  have hlt : id < r.counter token channel := lt_counter_of_waiting? hissued hwaits
  rw [Registry.counter, hplace] at hlt
  exact hlt

/-- An id is issued and registered, its session is evicted, and the same is done again. -/
def reissued : List Operation :=
  [.nextAckId "t" "c", .registerAck "t" "c" 0, .advance 101, .sweep, .nextAckId "t" "c",
    .registerAck "t" "c" 0]

theorem registersIssued_reissued :
    RegistersIssued briefLimits "t" "c" (Operation.history reissued { limits := briefLimits }) := by
  intro j m id hj hop
  obtain ⟨op, hplace, rfl⟩ := Operation.exists_of_getElem?_history hj
  rw [Operation.moment_operation] at hop
  subst hop
  have hcases : id = 0 ∧ (j = 1 ∨ j = 5) := by
    rcases j with _ | _ | _ | _ | _ | _ | j <;> cases hplace <;> simp
  obtain ⟨rfl, hwhere⟩ := hcases
  have issues (i : Nat)
      (hi : ((Operation.stateAt reissued { limits := briefLimits } i).nextAckId "t" "c").1 =
        .ok 0) :
      ((Operation.nextAckId "t" "c").moment
        (Operation.stateAt reissued { limits := briefLimits } i)).Issues "t" "c" 0 :=
    ⟨rfl, Operation.answer_eq_id_iff.2 hi⟩
  -- each registration directly follows the issue
  rcases hwhere with rfl | rfl
  · refine ⟨0, _, by omega, Operation.getElem?_history .., issues 0 (by decide +kernel), ?_⟩
    rintro ⟨k, n, hk, hk', -⟩
    omega
  · refine ⟨4, _, by omega, Operation.getElem?_history .., issues 4 (by decide +kernel), ?_⟩
    rintro ⟨k, n, hk, hk', -⟩
    omega

theorem bounds_runAll_reissued :
    ∃ s c a, (Operation.runAll reissued { limits := briefLimits }).2.sessions["t"]? = some s ∧
      s.channels["c"]? = some c ∧ c.acks[0]? = some a ∧
      (Operation.runAll reissued { limits := briefLimits }).2.sessionCount ≤
        briefLimits.maxSessions ∧
      c.acks.size ≤ briefLimits.maxAcks ∧ a.id = 0 ∧ a.registeredAt ≤ s.lastAccess ∧
      0 < c.nextId := by
  have hwaits : Option.isSome
      ((Operation.runAll reissued { limits := briefLimits }).2.waiting? "t" "c" 0) = true := by
    decide +kernel
  obtain ⟨a, ha⟩ := Option.isSome_iff_exists.1 hwaits
  obtain ⟨c, hc, ha⟩ := Option.bind_eq_some_iff.1 ha
  obtain ⟨s, hs, hc⟩ := Option.bind_eq_some_iff.1 hc
  obtain ⟨hcount, hsessions⟩ := bounds_runAll briefLimits 0 reissued
  obtain ⟨-, hchannels⟩ := hsessions "t" s hs
  obtain ⟨hsize, hentries, hcounter⟩ := hchannels "c" c hc
  exact ⟨s, c, a, hs, hc, ha, hcount, hsize, (hentries 0 a ha).1, (hentries 0 a ha).2,
    hcounter registersIssued_reissued 0 a ha⟩

end EventRelay.Ack
