import EventRelay.Proofs.Service.Receipt

/-!
# Requests that are refused or fail

A batch on a channel is refused if its token has no session and can get none, or if the channel has
no room for an id for each of its events, and for no other reason once it has been read
(`allocate_cases`). What was allocated for a batch that is refused, or that no sender delivers, is
taken back without a trace but one: the numbers are used up (`RolledBack`).

That no older id is taken back along with them, and that the refusal comes exactly where the limit
is passed, hangs on the state of the registry. In all that is done to a service but a registration
by itself, limits are kept and only issued ids wait (`WellKept`, `wellKept_run`).
-/

namespace EventRelay.Service

open Ack

/-- The registry keeps to its limits, and no id waits that was not issued. -/
structure WellKept (r : Registry) : Prop where
  sound : r.Sound
  numbered : r.Numbered

/-- The same ids wait as before, and so many numbers of one channel have been used up. -/
structure RolledBack (token channel : String) (used : Nat) (r r' : Registry) : Prop where
  acks_eq : ∀ token' channel' : String,
    (r'.channelD token' channel').acks = (r.channelD token' channel').acks
  nextId_self : (r'.channelD token channel).nextId = (r.channelD token channel).nextId + used
  nextId_of_ne : ∀ token' channel' : String, ¬ (token = token' ∧ channel = channel') →
    (r'.channelD token' channel').nextId = (r.channelD token' channel').nextId

variable {r r' : Registry} {token channel : String} {n used : Nat} {ids : List Nat}

theorem RolledBack.of_confined (h : Registry.Confined token channel r r')
    (hacks : (r'.channelD token channel).acks = (r.channelD token channel).acks)
    (hnext : (r'.channelD token channel).nextId = (r.channelD token channel).nextId + used) :
    RolledBack token channel used r r' := by
  refine ⟨?_, hnext, fun token' channel' hne => by rw [h.channelD_eq hne]⟩
  intro token' channel'
  by_cases hsame : token = token' ∧ channel = channel'
  · obtain ⟨rfl, rfl⟩ := hsame
    exact hacks
  · rw [h.channelD_eq hsame]

theorem RolledBack.numbered (h : RolledBack token channel used r r') (hr : r.Numbered) :
    r'.Numbered := by
  intro token' channel'
  refine (hr token' channel').skip ?_ (h.acks_eq token' channel')
  by_cases hsame : token = token' ∧ channel = channel'
  · obtain ⟨rfl, rfl⟩ := hsame
    rw [h.nextId_self]
    exact Nat.le_add_right ..
  · rw [h.nextId_of_ne token' channel' hsame]

/-! ## Admission -/

/-- A batch is refused for want of a session, is refused for want of room, or gets its ids. -/
theorem allocate_cases (hr : WellKept r) (token channel : String) (n : Nat) :
    (¬ r.Admits token ∧
      allocate token channel n r = (.error (.busy .sessions r.limits.maxSessions), r)) ∨
    (r.Admits token ∧ r.limits.maxAcks < (r.channelD token channel).acks.size + n ∧
      (allocate token channel n r).1 = .error (.busy .acks r.limits.maxAcks) ∧
      RolledBack token channel (r.limits.maxAcks - (r.channelD token channel).acks.size + 1) r
        (allocate token channel n r).2) ∨
    (r.Admits token ∧ (r.channelD token channel).acks.size + n ≤ r.limits.maxAcks ∧
      (allocate token channel n r).1 = .ok (List.range' (r.channelD token channel).nextId n) ∧
      (r.channelD token channel).Enrols false r.now n
        ((allocate token channel n r).2.channelD token channel)) := by
  by_cases hadmits : r.Admits token
  · have hnumbered := hr.numbered token channel
    rcases Nat.lt_or_ge r.limits.maxAcks ((r.channelD token channel).acks.size + n) with
      hfull | hroom
    · obtain ⟨hrefused, hacks, hnext⟩ := allocate_of_full hadmits hnumbered
        (hr.sound.channelD token channel).size_le hfull
      exact .inr (.inl ⟨hadmits, hfull, hrefused,
        .of_confined (confined_allocate token channel n r) hacks hnext⟩)
    · obtain ⟨ids, hids⟩ := exists_allocate_of_room hadmits hnumbered hroom
      obtain ⟨rfl, henrols⟩ := allocate_ok hids
      exact .inr (.inr ⟨hadmits, hroom, hids, henrols⟩)
  · exact .inl ⟨hadmits, allocate_of_not_admits channel n hadmits⟩

/-! ## Well-kept registries -/

namespace WellKept

theorem run (hr : WellKept r) (op : Ack.Operation) (hop : ∀ t c i, op ≠ .registerAck t c i) :
    WellKept (op.run r).2 :=
  ⟨hr.sound.run op, Operation.numbered_run hr.numbered hop⟩

theorem allocate (hr : WellKept r) (token channel : String) (n : Nat) :
    WellKept (Service.allocate token channel n r).2 := by
  have hconfined := confined_allocate token channel n r
  refine ⟨hconfined.sound hr.sound, ?_⟩
  rcases allocate_cases hr token channel n with ⟨-, hrefused⟩ | ⟨-, -, -, hback⟩ |
    ⟨-, -, -, henrols⟩
  · rw [hrefused]
    exact hr.numbered
  · exact hback.numbered hr.numbered
  · intro token' channel'
    by_cases hsame : token = token' ∧ channel = channel'
    · obtain ⟨rfl, rfl⟩ := hsame
      exact henrols.numbered (hr.numbered token channel)
    · rw [hconfined.channelD_eq hsame]
      exact hr.numbered token' channel'

theorem idsFor (hr : WellKept r) (token : String) (named : Option String) (n : Nat) :
    WellKept (Service.idsFor token named n r).2 := by
  cases named with
  | none => exact hr.run (.ensureChannel token defaultChannel) nofun
  | some channel => exact hr.allocate token channel n

theorem release (hr : WellKept r) (token channel : String) (ids : List Nat) :
    WellKept (Service.release token channel ids r) := by
  induction ids generalizing r with
  | nil => exact hr
  | cons id ids ih => exact ih (hr.run (.deleteAck token channel id) nofun)

theorem acknowledge (hr : WellKept r) (token channel : String) (ids : List Nat) :
    WellKept (Service.acknowledge token channel ids r) := by
  induction ids generalizing r with
  | nil => exact hr
  | cons id ids ih => exact ih (hr.run (.markAcknowledged token channel id) nofun)

theorem getAcks {σ : Type} {s : Service σ} (hr : WellKept s.registry) (caller : Caller)
    (body : Bytes) : WellKept (s.getAcks caller body).2.registry := by
  rcases getAcks_cases caller body s with ⟨f, heq⟩ | ⟨t, c, query, heq⟩
  · rwa [heq]
  · rw [heq]
    exact hr.run (.report t c query) nofun

end WellKept

variable {σ : Type} [Delivery.Transport σ] {rounds : Nat} {s s' : Service σ}

theorem WellKept.sendEvents {now : Int} {caller : Caller} {body : Bytes} {origin : Syslog.Origin}
    {x : Except Fault Receipt} (hr : WellKept s.registry)
    (h : s.sendEvents rounds now caller body origin = some (x, s')) : WellKept s'.registry := by
  cases sending_of_sendEvents h with
  | unread hread => exact hr
  | @refused token events e registry hread hids =>
    have hafter := hr.idsFor token (caller.channel.bind Text.nonBlank?) events.length
    rwa [hids] at hafter
  | @undelivered token events ids registry wait f pool hread hids hsend =>
    have hafter := hr.idsFor token (caller.channel.bind Text.nonBlank?) events.length
    rw [hids] at hafter
    exact hafter.release ..
  | @delivered token events ids registry wait pool hread hids hsend =>
    have hafter := hr.idsFor token (caller.channel.bind Text.nonBlank?) events.length
    rw [hids] at hafter
    exact hafter.acknowledge ..

namespace Operation

/-- Whatever is done to a service, if it is not a registration by itself, keeps its registry well.
-/
theorem wellKept_run {op : Operation} {a : Answer} (hr : WellKept s.registry)
    (hop : ∀ t c i, op ≠ .registry (.registerAck t c i)) (h : op.run rounds s = some (a, s')) :
    WellKept s'.registry := by
  cases op with
  | sendEvents now caller body origin =>
    obtain ⟨⟨x, s₁⟩, hsend, heq⟩ := Option.map_eq_some_iff.1 h
    obtain rfl : s₁ = s' := by cases x <;> cases heq <;> rfl
    exact hr.sendEvents hsend
  | getAcks caller body =>
    have hafter := hr.getAcks caller body
    simp only [run] at h
    split at h
    · cases h
      exact hafter
    · cases h
      exact hafter
  | registry operation =>
    cases h
    apply hr.run operation
    rintro t c i rfl
    exact hop t c i rfl
  | closePool =>
    obtain ⟨s₁, hclose, heq⟩ := Option.map_eq_some_iff.1 h
    cases heq
    rwa [registry_closePool hclose]

theorem wellKept_runAll {ops : List Operation} {answers : List Answer} (hr : WellKept s.registry)
    (hops : ∀ t c i, .registry (.registerAck t c i) ∉ ops)
    (h : runAll rounds ops s = some (answers, s')) : WellKept s'.registry := by
  induction ops generalizing answers s with
  | nil => cases h; exact hr
  | cons op ops ih =>
    obtain ⟨a, rest, s₁, rfl, hrun, hrest⟩ := runAll_cons h
    apply ih _ (fun t c i hmem => hops t c i (List.mem_cons_of_mem _ hmem)) hrest
    apply wellKept_run hr _ hrun
    rintro t c i rfl
    exact hops t c i List.mem_cons_self

end Operation

theorem WellKept.empty (hempty : r.sessions = ∅) : WellKept r := by
  obtain ⟨limits, now, sessions⟩ := r
  obtain rfl : sessions = ∅ := hempty
  exact ⟨.empty limits now, .empty limits now⟩

/-! ## What comes of a request -/

section Requests

variable {now : Int} {caller : Caller} {body : Bytes} {origin : Syslog.Origin}
  {events : List Event}

/-- A request whose ids are refused gets as far as the registry. -/
theorem sendEvents_of_refused (rounds : Nat) (origin : Syslog.Origin) {e : Refusal}
    (hnames : caller.Names token channel)
    (hread : readEvents now caller body = .ok (token, events))
    (hids : (allocate token channel events.length s.registry).1 = .error e) :
    s.sendEvents rounds now caller body origin = some (.error (.ack e),
      { s with registry := (allocate token channel events.length s.registry).2 }) := by
  simp only [sendEvents, hread, hnames.2, idsFor, hids]

/-- A request on a channel that fails was refused a session, or room, or was not delivered. -/
theorem sendEvents_failed {f : Fault} (hr : WellKept s.registry)
    (hnames : caller.Names token channel)
    (hread : readEvents now caller body = .ok (token, events))
    (h : s.sendEvents rounds now caller body origin = some (.error f, s')) :
    let max := s.registry.limits.maxAcks
    let live := (s.registry.channelD token channel).acks.size
    (¬ s.registry.Admits token ∧ f = .ack (.busy .sessions s.registry.limits.maxSessions) ∧
      s' = s) ∨
    (s.registry.Admits token ∧ max < live + events.length ∧ f = .ack (.busy .acks max) ∧
      s'.pool = s.pool ∧ RolledBack token channel (max - live + 1) s.registry s'.registry) ∨
    (s.registry.Admits token ∧ live + events.length ≤ max ∧ ∃ g, f = .delivery g ∧
      RolledBack token channel events.length s.registry s'.registry) := by
  intro max live
  have hcases := allocate_cases hr token channel events.length
  cases sending_of_sendEvents h with
  | unread hread' =>
    rw [hread] at hread'
    cases hread'
  | @refused t es e registry hread' hids =>
    rw [hread] at hread'
    cases hread'
    rw [hnames.2, idsFor] at hids
    rcases hcases with ⟨hadmits, hanswer⟩ | ⟨hadmits, hfull, hanswer, hback⟩ | ⟨-, -, hanswer, -⟩
    · rw [hids] at hanswer
      cases hanswer
      exact .inl ⟨hadmits, rfl, rfl⟩
    · rw [hids] at hanswer hback
      cases hanswer
      exact .inr (.inl ⟨hadmits, hfull, rfl, rfl, hback⟩)
    · rw [hids] at hanswer
      cases hanswer
  | @undelivered t es ids registry wait g pool hread' hids hsend =>
    rw [hread] at hread'
    cases hread'
    rw [hnames.2, idsFor] at hids
    rcases hcases with ⟨-, hanswer⟩ | ⟨-, -, hanswer, -⟩ | ⟨hadmits, hroom, hanswer, henrols⟩
    · rw [hids] at hanswer
      cases hanswer
    · rw [hids] at hanswer
      cases hanswer
    · have hallocated := confined_allocate token channel events.length s.registry
      rw [hids] at hanswer henrols hallocated
      cases hanswer
      obtain ⟨hacks, hnext⟩ := release_of_enrols (hr.numbered token channel) henrols
      rw [hnames.2]
      exact .inr (.inr ⟨hadmits, hroom, g, rfl,
        .of_confined (hallocated.trans (confined_of_leads leads_release)) hacks hnext⟩)

/-- In a history from an empty registry in which ids are registered for batches only, a request to
send a batch on a channel is refused for want of a session exactly if its token has none and there
are as many as there may be, and then the service is left as it was. Otherwise it is refused for
want of room exactly if the channel cannot hold an id for each of the events. Whatever fails then,
the ids that wait on any channel are those that waited before, with their marks and times; only the
counter of the channel has moved, past the ids that were issued. A request that is refused does not
get as far as the senders. -/
theorem sendEvents_admission {ops : List Operation} {answers : List Answer} {s₀ : Service σ}
    (origin : Syslog.Origin)
    (hempty : s₀.registry.sessions = ∅) (hops : ∀ t c i, .registry (.registerAck t c i) ∉ ops)
    (hrun : Operation.runAll rounds ops s₀ = some (answers, s))
    (hnames : caller.Names token channel) (hread : Event.readAll now body = .ok events)
    (hsome : events ≠ []) :
    let r := s.registry
    let live := (r.channelD token channel).acks.size
    let crowded := r.lastAccess? token = none ∧ r.sessionCount = r.limits.maxSessions
    let outcome := s.sendEvents rounds now caller body origin
    (crowded → outcome = some (.error (.ack (.busy .sessions r.limits.maxSessions)), s)) ∧
    (¬ crowded →
      ((∃ s', outcome = some (.error (.ack (.busy .acks r.limits.maxAcks)), s')) ↔
        r.limits.maxAcks < live + events.length)) ∧
    ∀ f s', outcome = some (.error f, s') →
      (f = .ack (.busy .sessions r.limits.maxSessions) ∧ crowded ∧ s' = s) ∨
      (f = .ack (.busy .acks r.limits.maxAcks) ∧ s'.pool = s.pool ∧
        RolledBack token channel (r.limits.maxAcks - live + 1) r s'.registry) ∨
      ∃ g, f = .delivery g ∧ RolledBack token channel events.length r s'.registry := by
  intro r live crowded outcome
  have hr : WellKept r := Operation.wellKept_runAll (.empty hempty) hops hrun
  have hcrowded : crowded ↔ ¬ r.Admits token := by
    have hsize := hr.sound.size_le
    rw [Registry.Admits, not_or, Decidable.not_not]
    refine and_congr_right fun _ => ?_
    omega
  have hrequest := readEvents_eq_ok_iff.2 ⟨hnames.1, hread, hsome⟩
  refine ⟨?_, ?_, ?_⟩
  · intro hfull
    have hanswer := allocate_of_not_admits channel events.length (hcrowded.1 hfull)
    have hsend :=
      sendEvents_of_refused rounds origin hnames hrequest (congrArg Prod.fst hanswer)
    rwa [hanswer] at hsend
  · intro hnot
    constructor
    · rintro ⟨s', hs'⟩
      rcases sendEvents_failed hr hnames hrequest hs' with
        ⟨-, hf, -⟩ | ⟨-, hfull, -⟩ | ⟨-, -, g, hf, -⟩
      · cases hf
      · exact hfull
      · cases hf
    · intro hfull
      rcases allocate_cases hr token channel events.length with
        ⟨hadmits, -⟩ | ⟨-, -, hanswer, -⟩ | ⟨-, hroom, -⟩
      · exact absurd (hcrowded.2 hadmits) hnot
      · exact ⟨_, sendEvents_of_refused rounds origin hnames hrequest hanswer⟩
      · exact absurd hfull (Nat.not_lt_of_le hroom)
  · intro f s' hs'
    rcases sendEvents_failed hr hnames hrequest hs' with
      ⟨hadmits, hf, hsame⟩ | ⟨-, -, hf, hpool, hback⟩ | ⟨-, -, hback⟩
    · exact .inl ⟨hf, hcrowded.2 hadmits, hsame⟩
    · exact .inr (.inl ⟨hf, hpool, hback⟩)
    · exact .inr (.inr hback)

end Requests

/-- A service whose channels hold three ids, and one sender. -/
def roomForThree : Service Delivery.Memory :=
  { oneSender with registry := { limits := { maxAcks := 3 } } }

/-- Two events are sent, and a sweep finds nothing. -/
def firstPair : List Operation := [.sendEvents 0 client pairOfEvents {}, .registry .sweep]

theorem sendEvents_admission_secondPair :
    ∃ answers s events, Operation.runAll 2 firstPair roomForThree = some (answers, s) ∧
      client.Names "t" "c" ∧ Event.readAll 0 pairOfEvents = .ok events ∧ events ≠ [] ∧
      ∃ s', s.sendEvents 2 0 client pairOfEvents {} = some (.error (.ack (.busy .acks 3)), s') ∧
        s'.pool = s.pool ∧ RolledBack "t" "c" 2 s.registry s'.registry := by
  have hstate : (Operation.runAll 2 firstPair roomForThree).map (fun x =>
      (x.2.registry.lastAccess? "t", x.2.registry.limits.maxAcks,
        (x.2.registry.channelD "t" "c").acks.size)) = some (some 0, 3, 2) := by decide +kernel
  obtain ⟨⟨answers, s⟩, hrun, heq⟩ := Option.map_eq_some_iff.1 hstate
  obtain ⟨hlive, hlimits⟩ := Prod.mk.inj heq
  obtain ⟨hmax, hsize⟩ := Prod.mk.inj hlimits
  have hops : ∀ t c i, .registry (.registerAck t c i) ∉ firstPair := by
    intro t c i
    simp [firstPair]
  have hnames : client.Names "t" "c" := by decide +kernel
  have hlength : (Event.readAll 0 pairOfEvents).toOption.map List.length = some 2 := by
    decide +kernel
  cases hread : Event.readAll 0 pairOfEvents with
  | error f =>
    rw [hread] at hlength
    cases hlength
  | ok events =>
    rw [hread] at hlength
    have htwo : events.length = 2 := Option.some.inj hlength
    have hsome : events ≠ [] := List.ne_nil_of_length_pos (by omega)
    obtain ⟨-, hroom, hfails⟩ := sendEvents_admission {} rfl hops hrun hnames hread hsome
    rw [hlive, hmax, hsize, htwo] at hroom
    obtain ⟨s', hs'⟩ := (hroom nofun).2 (by decide)
    refine ⟨answers, s, events, hrun, hnames, rfl, hsome, s', hs', ?_⟩
    rcases hfails _ _ hs' with ⟨hf, -⟩ | ⟨-, hpool, hback⟩ | ⟨g, hf, -⟩
    · cases hf
    · rw [hmax, hsize] at hback
      exact ⟨hpool, hback⟩
    · cases hf

end EventRelay.Service
