import EventRelay.Proofs.Ack.Acked
import EventRelay.Proofs.Ack.Counter
import Mathlib.Data.List.Nodup

/-!
# Queries

What a query is answered and what it leaves behind, for every registry and every query
(`report_outcome`). A query is looked at as a whole before anything is looked up, and anything is
looked up before an id is forgotten, so one that is refused forgets nothing.

The answer names each id once, in the order of the query (`toList_report`). An id that the query
names again has been forgotten by then, and its later status is the one that counts. So naming it
twice hides that it was acknowledged, and it is used up all the same (`report_of_repeats`).
-/

namespace EventRelay

/-- The value is that integer, and it fits 64 bits in two's complement. -/
def Json.IsId (v : Json) (id : Int) : Prop :=
  v = .number (.integer id) ∧ -9223372036854775808 ≤ id ∧ id < 9223372036854775808

/-- The query names these ids in this order and nothing else. -/
def Json.Asks (query : Json) (ids : List Int) : Prop :=
  ∃ items, query.get? "acks" = some (.array items) ∧ List.Forall₂ Json.IsId items ids

theorem Json.int64?_eq_some_iff {v : Json} {id : Int} : v.int64? = some id ↔ v.IsId id := by
  unfold IsId
  cases v with
  | number n =>
    cases n with
    | integer z =>
      have hfits : Text.Numeral.fits64 z = true ↔
          -9223372036854775808 ≤ z ∧ z < 9223372036854775808 := by
        unfold Text.Numeral.fits64
        rw [Bool.and_eq_true, decide_eq_true_iff, decide_eq_true_iff]
        exact Iff.rfl
      rw [int64?, Option.ite_none_right_eq_some, hfits]
      constructor
      · rintro ⟨hrange, heq⟩
        cases heq
        exact ⟨rfl, hrange⟩
      · rintro ⟨heq, hrange⟩
        cases heq
        exact ⟨hrange, rfl⟩
    | real x => simp [int64?]
  | _ => simp [int64?]

/-! ## Each id once -/

section Firsts

variable {α : Type} [BEq α] [LawfulBEq α] {l : List α} {a : α}

theorem eraseDups_concat_of_mem (h : a ∈ l) : (l ++ [a]).eraseDups = l.eraseDups := by
  simp [List.eraseDups_append, List.removeAll, h]

theorem eraseDups_concat_of_not_mem (h : a ∉ l) : (l ++ [a]).eraseDups = l.eraseDups ++ [a] := by
  simp [List.eraseDups_append, List.removeAll, h, List.eraseDups_cons]

theorem nodup_eraseDups (l : List α) : l.eraseDups.Nodup := by
  induction l using List.reverseRecOn with
  | nil => exact List.nodup_nil
  | append_singleton l a ih =>
    by_cases ha : a ∈ l
    · rwa [eraseDups_concat_of_mem ha]
    · rw [eraseDups_concat_of_not_mem ha, List.nodup_append]
      refine ⟨ih, List.nodup_singleton a, ?_⟩
      intro b hb a' ha'
      rintro rfl
      rw [List.mem_singleton.1 ha', List.mem_eraseDups] at hb
      exact ha hb

theorem eraseDups_of_nodup (h : l.Nodup) : l.eraseDups = l := by
  induction l with
  | nil => rfl
  | cons a l ih =>
    obtain ⟨ha, hl⟩ := List.nodup_cons.1 h
    have hkeep : l.filter (fun b => !b == a) = l := by
      rw [List.filter_eq_self]
      intro b hb
      have hne : b ≠ a := by
        rintro rfl
        exact ha hb
      simp [hne]
    rw [List.eraseDups_cons, hkeep, ih hl]

end Firsts

namespace Ack

/-! ## What is answered, and what is left of the channel -/

namespace Channel

/-- Whether an id is acknowledged, which none below zero is. -/
def flag (c : Channel) (id : Int) : Bool :=
  decide (0 ≤ id) && (c.acks[id.toNat]?).any Ack.acknowledged

/-- What a query leaves of a channel: the ids that it names are gone, and all else stays. -/
structure Consumes (ids : List Int) (c c' : Channel) : Prop where
  nextId_eq : c'.nextId = c.nextId
  acks : ∀ id : Nat, c'.acks[id]? = if (id : Int) ∈ ids then none else c.acks[id]?

variable {ids ids' : List Int} {c c₁ c₂ : Channel}

theorem consumes_report (ids : List Int) (found : Statuses) (c : Channel) :
    c.Consumes ids (c.report ids found).2 :=
  ⟨nextId_report ids found c, acks_report ids found c⟩

theorem Consumes.unique (h : c.Consumes ids c₁) (h' : c.Consumes ids' c₂)
    (hsame : ∀ id, id ∈ ids ↔ id ∈ ids') : c₁ = c₂ := by
  apply ext (h.nextId_eq.trans h'.nextId_eq.symm)
  intro id
  rw [h.acks, h'.acks]
  simp only [hsame]

theorem report_append (ids ids' : List Int) (found : Statuses) (c : Channel) :
    c.report (ids ++ ids') found = (c.report ids found).2.report ids' (c.report ids found).1 := by
  induction ids generalizing found c with
  | nil => rfl
  | cons named ids ih =>
    cases named with
    | ofNat n => exact ih _ _
    | negSucc n => exact ih _ _

theorem report_singleton (id : Int) (found : Statuses) (c : Channel) :
    (c.report [id] found).1 = found.insert id (c.flag id) := by
  cases id with
  | ofNat n =>
    have hstatus : c.status n = c.flag (Int.ofNat n) := by
      unfold status flag
      cases h : c.acks[n]? <;> simp [h]
    simp only [report, hstatus]
    rfl
  | negSucc n =>
    have hflag : c.flag (Int.negSucc n) = false := by simp [flag]
    rw [report, report, hflag]

theorem flag_report (ids : List Int) (found : Statuses) (c : Channel) (id : Int) :
    (c.report ids found).2.flag id = (decide (id ∉ ids) && c.flag id) := by
  unfold flag
  by_cases hneg : 0 ≤ id
  · rw [acks_report, Int.toNat_of_nonneg hneg]
    by_cases hid : id ∈ ids <;> simp [hid]
  · simp [hneg]

/-- A query is answered with each id that it names, in the order in which they are named first. An
id that is named once has its flag; one that is named again is gone by then. -/
theorem toList_report (ids : List Int) (c : Channel) :
    (c.report ids .empty).1.toList =
      ids.eraseDups.map fun id => (id, decide (ids.count id = 1) && c.flag id) := by
  induction ids using List.reverseRecOn with
  | nil => rfl
  | append_singleton ids id ih =>
    have hwell : (c.report ids .empty).1.WellFormed :=
      wellFormed_report Statuses.wellFormed_empty
    have hkeys : (c.report ids .empty).1.toList.map Prod.fst = ids.eraseDups := by
      rw [ih, List.map_map]
      exact List.map_id _
    rw [report_append, report_singleton, flag_report]
    by_cases hid : id ∈ ids
    · have hmem : id ∈ (c.report ids .empty).1.toList.map Prod.fst := by
        rw [hkeys]
        exact List.mem_eraseDups.2 hid
      rw [Statuses.toList_insert_of_mem hwell hmem, ih, eraseDups_concat_of_mem hid, List.map_map]
      apply List.map_congr_left
      intro id' hid'
      by_cases heq : id' = id
      · subst heq
        have hcount : 0 < ids.count id' := List.count_pos_iff.2 hid
        simp [hid, List.count_append, Nat.ne_of_gt hcount]
      · have hcount : (ids ++ [id]).count id' = ids.count id' := by
          simp [List.count_append, Ne.symm heq]
        simp [heq, hcount]
    · have hnew : id ∉ (c.report ids .empty).1.toList.map Prod.fst := by
        rw [hkeys]
        exact fun h => hid (List.mem_eraseDups.1 h)
      rw [Statuses.toList_insert_of_not_mem hwell hnew, ih, eraseDups_concat_of_not_mem hid,
        List.map_append]
      congr 1
      · apply List.map_congr_left
        intro id' hid'
        have hne : id ≠ id' := by
          rintro rfl
          exact hid (List.mem_eraseDups.1 hid')
        simp [List.count_append, hne]
      · simp [hid, List.count_append, List.count_eq_zero_of_not_mem hid]

end Channel

namespace Registry

/-! ## Reading a query -/

section Reading

variable {query : Json} {items : List Json}

theorem queriedIds?_of_none (h : (query.get? "acks").bind Json.array? = none) :
    queriedIds? query = none := by
  rw [queriedIds?, h]
  rfl

theorem queriedIds?_of_asks {ids : List Int} (h : query.Asks ids) :
    queriedIds? query = some (.ok ids) := by
  obtain ⟨items, hacks, hitems⟩ := h
  rw [queriedIds?, hacks, Option.bind_some, Json.array?, Option.map_some, Option.some.injEq]
  clear hacks
  induction hitems with
  | nil => rfl
  | @cons v id items ids hv _ ih =>
    have hid : v.int64? = some id := Json.int64?_eq_some_iff.2 hv
    simp only [List.mapM_cons, hid, ih, bind, Except.bind]
    rfl

/-- The first value that is no id decides. -/
theorem queriedIds?_of_first {before after : List Json} {v : Json}
    (h : query.get? "acks" = some (.array (before ++ v :: after)))
    (hbefore : ∀ u ∈ before, ∃ id, u.IsId id) (hv : ¬ ∃ id, v.IsId id) :
    queriedIds? query = some (.error (.invalidId v.compact)) := by
  rw [queriedIds?, h, Option.bind_some, Json.array?, Option.map_some, Option.some.injEq]
  clear h
  induction before with
  | nil =>
    have hnone : v.int64? = none := by
      rw [Option.eq_none_iff_forall_ne_some]
      intro id hid
      exact hv ⟨id, Json.int64?_eq_some_iff.1 hid⟩
    simp only [List.nil_append, List.mapM_cons, hnone, bind, Except.bind]
  | cons u before ih =>
    obtain ⟨⟨id, hu⟩, hrest⟩ := List.forall_mem_cons.1 hbefore
    have hid : u.int64? = some id := Json.int64?_eq_some_iff.2 hu
    simp only [List.cons_append, List.mapM_cons, hid, ih hrest, bind, Except.bind]

end Reading

/-! ## Answering -/

variable {r : Registry} {token channel : String} {query : Json} {ids : List Int} {s : Session}
  {c : Channel}

theorem report_of_asks (h : query.Asks ids) (hs : r.sessions[token]? = some s)
    (hc : s.channels[channel]? = some c) :
    r.report token channel query = (.ok (c.report ids .empty).1,
      r.put token { s with channels := s.channels.insert channel (c.report ids .empty).2 }) := by
  rw [report_of_live (queriedIds?_of_asks h) (by simp [lastAccess?, hs])]
  simp only [onExisting, hs, hc]

/-- A query without ids is answered with nothing, and one with a value that is no id is refused for
the first such value; neither touches the registry. Nor does a query of a token without a session,
and one of a channel that is not there only uses the session. Otherwise the answer lists each id
that is asked for once, in the order in which they are asked for first, with its flag if it is asked
for once; and these ids are forgotten, whatever their flags, while the rest of the channel, the
other channels and the other sessions stay. -/
theorem report_outcome (r : Registry) (token channel : String) (query : Json) :
    ((query.get? "acks").bind Json.array? = none →
      r.report token channel query = (.ok .empty, r)) ∧
    (∀ before v after, query.get? "acks" = some (.array (before ++ v :: after)) →
      (∀ u ∈ before, ∃ id, u.IsId id) → (¬ ∃ id, v.IsId id) →
      r.report token channel query = (.error (.invalidId v.compact), r)) ∧
    ∀ ids, query.Asks ids →
      (r.sessions[token]? = none →
        r.report token channel query = (.error .sessionNotFound, r)) ∧
      ∀ s, r.sessions[token]? = some s →
        (s.channels[channel]? = none →
          r.report token channel query = (.error .channelNotFound,
            { r with sessions := r.sessions.insert token { s with lastAccess := r.now } })) ∧
        ∀ c, s.channels[channel]? = some c → ∃ statuses c',
          r.report token channel query = (.ok statuses,
            { r with sessions := r.sessions.insert token ⟨r.now, s.channels.insert channel c'⟩ }) ∧
          (statuses.toList =
            ids.eraseDups.map fun id => (id, decide (ids.count id = 1) && c.flag id)) ∧
          c.Consumes ids c' := by
  refine ⟨?_, ?_, ?_⟩
  · intro h
    simp only [report, queriedIds?_of_none h]
  · intro before v after h hbefore hv
    simp only [report, queriedIds?_of_first h hbefore hv]
  · intro ids hasks
    have hids := queriedIds?_of_asks hasks
    refine ⟨?_, ?_⟩
    · intro hs
      exact report_of_absent hids (by simp [lastAccess?, hs])
    · intro s hs
      refine ⟨?_, ?_⟩
      · intro hc
        rw [report_of_live hids (by simp [lastAccess?, hs])]
        simp only [onExisting, hs, hc]
        rfl
      · intro c hc
        refine ⟨_, _, report_of_asks hasks hs hc, c.toList_report ids, ?_⟩
        exact Channel.consumes_report ids .empty c

/-- A query for ids. -/
def asking (ids : List Int) : Json :=
  .object [("acks", .array (ids.map fun id => .number (.integer id)))]

theorem asks_asking (h : ∀ id ∈ ids, -9223372036854775808 ≤ id ∧ id < 9223372036854775808) :
    (asking ids).Asks ids := by
  refine ⟨_, rfl, ?_⟩
  induction ids with
  | nil => exact .nil
  | cons id ids ih =>
    obtain ⟨hid, hrest⟩ := List.forall_mem_cons.1 h
    exact .cons ⟨rfl, hid⟩ (ih hrest)

/-- An id that is acknowledged and one that is not. -/
def twoWaiting : Registry :=
  (Operation.runAll [.registerAck "t" "c" 0, .markAcknowledged "t" "c" 0, .registerAck "t" "c" 7]
    {}).2

theorem report_outcome_twoWaiting :
    let ids := [7, -1, 0, 7, 5, 9223372036854775807]
    let items : List Json := [.number (.integer 0), .text "a", .text "b"]
    (asking ids).Asks ids ∧
      (∃ statuses, (twoWaiting.report "t" "c" (asking ids)).1 = .ok statuses ∧
        statuses.toList =
          [(7, false), (-1, false), (0, true), (5, false), (9223372036854775807, false)]) ∧
      (twoWaiting.report "t" "d" (asking ids)).1 = .error .channelNotFound ∧
      twoWaiting.report "u" "c" (asking ids) = (.error .sessionNotFound, twoWaiting) ∧
      twoWaiting.report "t" "c" (.object [("acks", .array items)]) =
        (.error (.invalidId (Json.text "a").compact), twoWaiting) ∧
      twoWaiting.report "t" "c" .null = (.ok .empty, twoWaiting) := by
  intro ids items
  have hasks : (asking ids).Asks ids := asks_asking (by decide)
  have hanswer : (twoWaiting.channel? "t" "c").map (fun c =>
      ids.eraseDups.map fun id => (id, decide (ids.count id = 1) && c.flag id)) =
        some [(7, false), (-1, false), (0, true), (5, false), (9223372036854775807, false)] := by
    decide +kernel
  obtain ⟨c, hc, hlist⟩ := Option.map_eq_some_iff.1 hanswer
  obtain ⟨s, hs, hc⟩ := Option.bind_eq_some_iff.1 hc
  have hd : (twoWaiting.sessions["t"]?.bind fun s => s.channels["d"]?).isNone = true := by
    decide +kernel
  rw [hs, Option.bind_some, Option.isNone_iff_eq_none] at hd
  obtain ⟨-, -, hlive⟩ := report_outcome twoWaiting "t" "c" (asking ids)
  obtain ⟨-, hfound⟩ := hlive ids hasks
  obtain ⟨-, hconsumed⟩ := hfound s hs
  obtain ⟨statuses, c', hreport, hstatuses, -⟩ := hconsumed c hc
  obtain ⟨-, -, hother⟩ := report_outcome twoWaiting "t" "d" (asking ids)
  obtain ⟨-, hchannel⟩ := hother ids hasks
  obtain ⟨-, -, hforeign⟩ := report_outcome twoWaiting "u" "c" (asking ids)
  obtain ⟨-, hinvalid, -⟩ := report_outcome twoWaiting "t" "c" (.object [("acks", .array items)])
  refine ⟨hasks, ⟨statuses, by rw [hreport], hstatuses.trans hlist⟩, ?_, ?_, ?_, ?_⟩
  · rw [(hchannel s hs).1 hd]
  · exact (hforeign ids hasks).1 (Option.isNone_iff_eq_none.1 (by decide +kernel))
  · apply hinvalid [.number (.integer 0)] (.text "a") [.text "b"] rfl
    · exact List.forall_mem_singleton.2 ⟨0, rfl, by decide, by decide⟩
    · rintro ⟨id, heq, -⟩
      cases heq
  · exact (report_outcome twoWaiting "t" "c" .null).1 rfl

/-- The ids that a query names wait no longer, and all other ids do as before. -/
theorem waiting?_report_of_asks (hasks : query.Asks ids) (token' channel' : String) (id : Nat) :
    (r.report token channel query).2.waiting? token' channel' id =
      if token = token' ∧ channel = channel' ∧ (id : Int) ∈ ids then none
      else r.waiting? token' channel' id := by
  rw [waiting?_report (queriedIds?_of_asks hasks)]
  by_cases hchannel : token = token' ∧ channel = channel'
  · simp only [hchannel, true_and, if_true]
  · rw [if_neg hchannel, if_neg fun h => hchannel ⟨h.1, h.2.1⟩]

/-- Naming an id more than once changes nothing in what a query leaves behind and in the order of
its answer, but such an id is answered as not acknowledged, also if it was. So an acknowledged id is
reported exactly if the query names it once. In either case it is used up: an id that is named waits
no longer, and all other ids do as before. -/
theorem report_of_repeats {query' : Json} (hc : r.channel? token channel = some c)
    (hasks : query.Asks ids) (hasks' : query'.Asks ids.eraseDups) :
    (r.report token channel query).2 = (r.report token channel query').2 ∧
    (∀ (token' channel' : String) (id : Nat),
      (r.report token channel query).2.waiting? token' channel' id =
        if token = token' ∧ channel = channel' ∧ (id : Int) ∈ ids then none
        else r.waiting? token' channel' id) ∧
    ∃ statuses statuses', (r.report token channel query).1 = .ok statuses ∧
      (r.report token channel query').1 = .ok statuses' ∧
      (statuses.toList =
        ids.eraseDups.map fun id => (id, decide (ids.count id = 1) && c.flag id)) ∧
      (statuses'.toList = ids.eraseDups.map fun id => (id, c.flag id)) ∧
      ∀ id ∈ ids, c.flag id = true → ((id, true) ∈ statuses.toList ↔ ids.count id = 1) := by
  obtain ⟨s, hs, hc⟩ := Option.bind_eq_some_iff.1 hc
  have hreport := report_of_asks hasks hs hc
  have hreport' := report_of_asks hasks' hs hc
  have hleft : (c.report ids .empty).2 = (c.report ids.eraseDups .empty).2 := by
    have honce := Channel.consumes_report ids.eraseDups .empty c
    apply (Channel.consumes_report ids .empty c).unique honce
    intro id
    exact List.mem_eraseDups.symm
  refine ⟨by rw [hreport, hreport', hleft], waiting?_report_of_asks hasks, _, _,
    congrArg Prod.fst hreport, congrArg Prod.fst hreport', c.toList_report ids, ?_, ?_⟩
  · rw [Channel.toList_report, eraseDups_of_nodup (nodup_eraseDups ids)]
    apply List.map_congr_left
    intro id hid
    rw [List.count_eq_one_of_mem (nodup_eraseDups ids) hid]
    rfl
  · intro id hid hflag
    rw [Channel.toList_report, List.mem_map]
    constructor
    · rintro ⟨id', -, heq⟩
      obtain ⟨rfl, honce⟩ := Prod.mk.inj heq
      exact of_decide_eq_true (Bool.and_eq_true_iff.1 honce).1
    · intro honce
      refine ⟨id, List.mem_eraseDups.2 hid, ?_⟩
      rw [honce, hflag]
      rfl

theorem report_of_repeats_twoWaiting :
    (asking [0, 7, 0]).Asks [0, 7, 0] ∧ (asking [0, 7]).Asks [0, 7] ∧
      (twoWaiting.report "t" "c" (asking [0, 7, 0])).2 =
        (twoWaiting.report "t" "c" (asking [0, 7])).2 ∧
      (twoWaiting.report "t" "c" (asking [0, 7, 0])).1.toOption.map Statuses.toList =
        some [(0, false), (7, false)] ∧
      (twoWaiting.report "t" "c" (asking [0, 7])).1.toOption.map Statuses.toList =
        some [(0, true), (7, false)] ∧
      twoWaiting.waiting? "t" "c" 0 = some ⟨0, true, 0⟩ ∧
      twoWaiting.waiting? "t" "c" 7 = some ⟨7, false, 0⟩ ∧
      (twoWaiting.report "t" "c" (asking [0, 7, 0])).2.waiting? "t" "c" 0 = none ∧
      (twoWaiting.report "t" "c" (asking [0, 7, 0])).2.waiting? "t" "c" 7 = none := by
  have hasks : (asking [0, 7, 0]).Asks [0, 7, 0] := asks_asking (by decide)
  have hasks' : (asking [0, 7]).Asks [0, 7] := asks_asking (by decide)
  have hflags : (twoWaiting.channel? "t" "c").map (fun c => (c.flag 0, c.flag 7)) =
      some (true, false) := by decide +kernel
  obtain ⟨c, hc, hflags⟩ := Option.map_eq_some_iff.1 hflags
  obtain ⟨hzero, hseven⟩ := Prod.mk.inj hflags
  obtain ⟨hleft, hforgotten, statuses, statuses', hreport, hreport', hlist, hlist', -⟩ :=
    report_of_repeats hc hasks hasks'
  have hdups : ([0, 7, 0] : List Int).eraseDups = [0, 7] := by decide
  refine ⟨hasks, hasks', hleft, ?_, ?_, by decide +kernel, by decide +kernel,
    hforgotten "t" "c" 0, hforgotten "t" "c" 7⟩
  · rw [hreport, Except.toOption, Option.map_some, hlist, hdups, List.map_cons, List.map_cons,
      hzero, hseven]
    rfl
  · rw [hreport', Except.toOption, Option.map_some, hlist', hdups, List.map_cons, List.map_cons,
      hzero, hseven]
    rfl

/-- An acknowledged id that is named twice is reported as not acknowledged, and forgotten; named
once it is reported. -/
theorem repeat_hides_acknowledged :
    twoWaiting.acked "t" "c" 0 = true ∧
      (asking [0, 0]).Asks [0, 0] ∧ (asking [0]).Asks [0, 0].eraseDups ∧
      (twoWaiting.report "t" "c" (asking [0, 0])).1.toOption.map Statuses.toList =
        some [(0, false)] ∧
      (twoWaiting.report "t" "c" (asking [0])).1.toOption.map Statuses.toList = some [(0, true)] ∧
      (twoWaiting.report "t" "c" (asking [0, 0])).2.waiting? "t" "c" 0 = none := by
  have hasks : (asking [0, 0]).Asks [0, 0] := asks_asking (by decide)
  have hasks' : (asking [0]).Asks [0, 0].eraseDups := asks_asking (by decide)
  refine ⟨?_, hasks, hasks', ?_, ?_, ?_⟩ <;> decide +kernel

end Registry

end Ack

end EventRelay
