import EventRelay.Proofs.Ack.Lookup
import Mathlib.Data.Set.Card

/-!
# What a sweep removes

A sweep keeps the sessions that were used recently, and of their ids those that were registered
recently, and changes nothing else (`lastAccess?_sweep_eq_some_iff`, `waiting?_sweep_eq_some_iff`).
Its report counts what is gone (`report_sweep`): the registry is laid out as a list of all ids that
wait, each once, and counting in it is counting in the tables.

A later sweep forgets all that an earlier one would have forgotten, since ages only grow. So an
earlier sweep makes no difference to what a later one leaves (`sweep_advance_sweep`).
-/

namespace EventRelay.Ack

/-! ## Counting in tables -/

namespace Table

section Spread

variable {α β γ : Type} [Ord α] [Std.TransOrd α]

/-- What the values of a table hold, each with the key that it is found under. -/
def spread (items : β → List γ) (t : Table α β) : List (α × γ) :=
  t.toList.flatMap fun e => (items e.2).map (e.1, ·)

variable {items : β → List γ} {t : Table α β}

theorem length_spread :
    (t.spread items).length = t.foldl (fun n _ v => n + (items v).length) 0 := by
  rw [Std.ExtTreeMap.foldl_eq_foldl_toList, spread, List.length_flatMap, List.sum_eq_foldl,
    List.foldl_map]
  simp only [List.length_map]

variable [Std.LawfulEqOrd α]

theorem mem_spread {x : α × γ} : x ∈ t.spread items ↔ ∃ v, t[x.1]? = some v ∧ x.2 ∈ items v := by
  obtain ⟨k, y⟩ := x
  simp only [spread, List.mem_flatMap, List.mem_map, Prod.mk.injEq, Prod.exists,
    Std.ExtTreeMap.mem_toList_iff_getElem?_eq_some]
  constructor
  · rintro ⟨k', v, hv, y', hy, rfl, rfl⟩
    exact ⟨v, hv, hy⟩
  · rintro ⟨v, hv, hy⟩
    exact ⟨k, v, hv, y, hy, rfl, rfl⟩

theorem nodup_spread (h : ∀ v, (items v).Nodup) : (t.spread items).Nodup := by
  refine List.nodup_flatMap.2 ⟨fun e _ => (h e.2).map (Prod.mk_right_injective e.1), ?_⟩
  refine Std.ExtTreeMap.distinct_keys_toList.imp fun {e e'} hkeys => ?_
  simp only [Function.onFun, List.disjoint_left, List.mem_map]
  rintro x ⟨y, -, rfl⟩ ⟨y', -, heq⟩
  exact hkeys (Std.LawfulEqCmp.compare_eq_iff_eq.2 (Prod.mk.inj heq).1.symm)

end Spread

end Table

theorem ncard_setOf_mem {α : Type} {l : List α} (h : l.Nodup) : {x | x ∈ l}.ncard = l.length := by
  classical
  rw [← List.coe_toFinset, Set.ncard_coe_finset, List.toFinset_card_of_nodup h]

namespace Registry

/-- The tokens that have a session. -/
def live (r : Registry) : Set String := {token | r.lastAccess? token ≠ none}

/-- The ids that wait, each with its token and its channel. -/
def pending (r : Registry) : Set (String × String × Nat) :=
  {x | r.waiting? x.1 x.2.1 x.2.2 ≠ none}

variable {r : Registry} {token channel : String} {id used : Nat} {a : Ack}

theorem live_eq (r : Registry) : r.live = {token | token ∈ r.sessions.keys} := by
  ext token
  simp only [live, lastAccess?, Set.mem_ofPred_eq, ne_eq, Option.map_eq_none_iff,
    Std.ExtTreeMap.mem_keys, ← Std.ExtTreeMap.isSome_getElem?_iff_mem, Option.isSome_iff_ne_none]

/-- All ids that wait, one after another. -/
def entries (r : Registry) : List (String × String × Nat) :=
  r.sessions.spread fun s => s.channels.spread fun c => c.acks.keys

theorem pending_eq (r : Registry) : r.pending = {x | x ∈ r.entries} := by
  ext ⟨token, channel, id⟩
  simp only [pending, entries, Set.mem_ofPred_eq, Table.mem_spread, Std.ExtTreeMap.mem_keys,
    ← Std.ExtTreeMap.isSome_getElem?_iff_mem, Option.isSome_iff_exists, waiting?, channel?,
    Option.ne_none_iff_exists', Option.bind_eq_some_iff]
  constructor
  · rintro ⟨a, c, ⟨s, hs, hc⟩, ha⟩
    exact ⟨s, hs, c, hc, a, ha⟩
  · rintro ⟨s, hs, c, hc, a, ha⟩
    exact ⟨a, c, ⟨s, hs, hc⟩, ha⟩

theorem finite_live (r : Registry) : r.live.Finite := by
  rw [live_eq]
  exact List.finite_toSet _

theorem finite_pending (r : Registry) : r.pending.Finite := by
  rw [pending_eq]
  exact List.finite_toSet _

theorem sessionCount_eq_ncard (r : Registry) : r.sessionCount = r.live.ncard := by
  rw [live_eq, ncard_setOf_mem Std.ExtTreeMap.nodup_keys, Std.ExtTreeMap.length_keys, sessionCount]

theorem totalAcks_eq_ncard (r : Registry) : r.totalAcks = r.pending.ncard := by
  rw [pending_eq, ncard_setOf_mem]
  · rw [entries, Table.length_spread]
    simp only [Table.length_spread, Std.ExtTreeMap.length_keys]
    rfl
  · exact Table.nodup_spread fun _ => Table.nodup_spread fun _ => Std.ExtTreeMap.nodup_keys

/-! ## What is kept -/

theorem lastAccess?_sweep_eq_some_iff :
    r.sweep.2.lastAccess? token = some used ↔
      r.lastAccess? token = some used ∧ r.now ≤ used + r.limits.maxSessionAge := by
  rw [lastAccess?_sweep, Option.filter_eq_some_iff, decide_eq_true_iff, Recent,
    Nat.sub_le_iff_le_add']

theorem mem_live_sweep :
    token ∈ r.sweep.2.live ↔ ∃ used, r.lastAccess? token = some used ∧ r.Recent used := by
  simp only [live, Set.mem_ofPred_eq, Option.ne_none_iff_exists', lastAccess?_sweep,
    Option.filter_eq_some_iff, decide_eq_true_iff]

theorem channel?_sweep_eq_some_iff {c' : Channel} :
    r.sweep.2.channel? token channel = some c' ↔
      token ∈ r.sweep.2.live ∧
        ∃ c, r.channel? token channel = some c ∧ c.expire r.now r.limits.maxAckAge = c' := by
  by_cases hlive : token ∈ r.sweep.2.live
  · obtain ⟨used, hused, hrecent⟩ := mem_live_sweep.1 hlive
    rw [channel?_sweep_of_recent hused hrecent, Option.map_eq_some_iff, and_iff_right hlive]
  · have hidle : ∀ used, r.lastAccess? token = some used → ¬ r.Recent used :=
      fun used hused hrecent => hlive (mem_live_sweep.2 ⟨used, hused, hrecent⟩)
    rw [channel?_sweep_of_idle hidle]
    exact iff_of_false nofun fun h => hlive h.1

/-- What a channel gives out next, if there is that channel. -/
def counter? (token channel : String) (r : Registry) : Option Nat :=
  (r.channel? token channel).map Channel.nextId

theorem counter?_sweep_eq_some_iff {n : Nat} :
    r.sweep.2.counter? token channel = some n ↔
      token ∈ r.sweep.2.live ∧ r.counter? token channel = some n := by
  simp only [counter?, Option.map_eq_some_iff, channel?_sweep_eq_some_iff]
  constructor
  · rintro ⟨c', ⟨hlive, c, hc, rfl⟩, hn⟩
    exact ⟨hlive, c, hc, hn⟩
  · rintro ⟨hlive, c, hc, hn⟩
    exact ⟨_, ⟨hlive, c, hc, rfl⟩, hn⟩

theorem waiting?_sweep_eq_some_iff :
    r.sweep.2.waiting? token channel id = some a ↔
      token ∈ r.sweep.2.live ∧ r.waiting? token channel id = some a ∧
        r.now ≤ a.registeredAt + r.limits.maxAckAge := by
  simp only [waiting?, Option.bind_eq_some_iff, channel?_sweep_eq_some_iff]
  constructor
  · rintro ⟨c', ⟨hlive, c, hc, rfl⟩, ha⟩
    rw [Channel.acks_expire, Option.filter_eq_some_iff, decide_eq_true_iff,
      Nat.sub_le_iff_le_add'] at ha
    exact ⟨hlive, ⟨c, hc, ha.1⟩, ha.2⟩
  · rintro ⟨hlive, ⟨c, hc, ha⟩, hyoung⟩
    refine ⟨_, ⟨hlive, c, hc, rfl⟩, ?_⟩
    rw [Channel.acks_expire, Option.filter_eq_some_iff, decide_eq_true_iff,
      Nat.sub_le_iff_le_add']
    exact ⟨ha, hyoung⟩

/-! ## What the report counts -/

theorem sessions_dropIdle (r : Registry) (token : String) :
    r.dropIdle.sessions[token]? =
      r.sessions[token]?.filter fun s => decide (r.Recent s.lastAccess) :=
  Std.ExtTreeMap.getElem?_filter'

theorem live_dropIdle (r : Registry) : r.dropIdle.live = r.sweep.2.live := by
  ext token
  simp only [live, lastAccess?, Set.mem_ofPred_eq, sessions_dropIdle, sessions_sweep, ne_eq,
    Option.map_eq_none_iff]

theorem pending_dropIdle (r : Registry) :
    r.dropIdle.pending = {x | x.1 ∈ r.sweep.2.live ∧ x ∈ r.pending} := by
  rw [← live_dropIdle]
  ext ⟨token, channel, id⟩
  simp only [live, pending, Set.mem_ofPred_eq, lastAccess?, waiting?, channel?, sessions_dropIdle]
  cases r.sessions[token]? with
  | none => simp
  | some s => by_cases hrecent : r.Recent s.lastAccess <;> simp [Option.filter_some, hrecent]

/-- The report of a sweep counts the sessions that are gone, and the ids that are gone from those
that remain. -/
theorem report_sweep (r : Registry) :
    r.sweep.1 = ⟨(r.live \ r.sweep.2.live).ncard,
      {x | x.1 ∈ r.sweep.2.live ∧ x ∈ r.pending \ r.sweep.2.pending}.ncard⟩ := by
  have hsessions : r.sweep.2.live ⊆ r.live := by
    intro token hlive
    obtain ⟨used, hused, -⟩ := mem_live_sweep.1 hlive
    exact Option.ne_none_iff_exists'.2 ⟨used, hused⟩
  have hacks : r.sweep.2.pending ⊆ r.dropIdle.pending := by
    rintro ⟨token, channel, id⟩ hpending
    obtain ⟨a, ha⟩ := Option.ne_none_iff_exists'.1 hpending
    obtain ⟨hlive, ha, -⟩ := waiting?_sweep_eq_some_iff.1 ha
    rw [pending_dropIdle]
    exact ⟨hlive, Option.ne_none_iff_exists'.2 ⟨a, ha⟩⟩
  have hgone : {x | x.1 ∈ r.sweep.2.live ∧ x ∈ r.pending \ r.sweep.2.pending} =
      r.dropIdle.pending \ r.sweep.2.pending := by
    rw [pending_dropIdle]
    ext x
    exact and_assoc.symm
  rw [hgone, Set.ncard_sdiff hsessions (finite_live _), Set.ncard_sdiff hacks (finite_pending _),
    ← live_dropIdle, ← sessionCount_eq_ncard, ← sessionCount_eq_ncard, ← totalAcks_eq_ncard,
    ← totalAcks_eq_ncard]
  rfl

/-! ## One sweep after another -/

theorem ext {r r' : Registry} (hlimits : r.limits = r'.limits) (hnow : r.now = r'.now)
    (hsessions : ∀ token : String, r.sessions[token]? = r'.sessions[token]?) : r = r' := by
  obtain ⟨limits, now, sessions⟩ := r
  obtain ⟨limits', now', sessions'⟩ := r'
  obtain rfl : limits = limits' := hlimits
  obtain rfl : now = now' := hnow
  obtain rfl : sessions = sessions' := Std.ExtTreeMap.ext_getElem? fun token => hsessions token
  rfl

end Registry

theorem Channel.expire_expire {now now' : Nat} (h : now ≤ now') (maxAge : Nat) (c : Channel) :
    (c.expire now maxAge).expire now' maxAge = c.expire now' maxAge := by
  refine Channel.ext rfl fun id => ?_
  simp only [acks_expire, Option.filter_filter]
  congr 1
  funext a
  rw [← Bool.decide_and, decide_eq_decide]
  omega

theorem Session.channels_expire (now maxAge : Nat) (s : Session) (channel : String) :
    (s.expire now maxAge).channels[channel]? =
      s.channels[channel]?.map (Channel.expire now maxAge) :=
  Std.ExtTreeMap.getElem?_map

theorem Session.expire_expire {now now' : Nat} (h : now ≤ now') (maxAge : Nat) (s : Session) :
    (s.expire now maxAge).expire now' maxAge = s.expire now' maxAge := by
  refine congrArg (Session.mk s.lastAccess) (Std.ExtTreeMap.ext_getElem? fun channel => ?_)
  have htwice := ((s.expire now maxAge).channels_expire now' maxAge channel).trans
    (congrArg _ (s.channels_expire now maxAge channel))
  refine htwice.trans (Eq.trans ?_ (s.channels_expire now' maxAge channel).symm)
  rw [Option.map_map]
  congr 1
  funext c
  exact c.expire_expire h maxAge

namespace Registry

/-- What an earlier sweep forgets a later one would have forgotten. -/
theorem sweep_advance_sweep (r : Registry) (ms : Nat) :
    (r.sweep.2.advance ms).sweep.2 = (r.advance ms).sweep.2 := by
  have hnow : r.now ≤ (r.advance ms).now := Nat.le_add_right r.now ms
  have hearlier : ∀ used, (r.advance ms).Recent used → r.Recent used :=
    fun used h => Nat.le_trans (Nat.sub_le_sub_right hnow used) h
  refine Registry.ext rfl rfl fun token => ?_
  have hfirst : (r.sweep.2.advance ms).sessions[token]? = _ := r.sessions_sweep token
  rw [sessions_sweep, sessions_sweep, hfirst, Option.filter_map, Option.map_map,
    Option.filter_filter]
  congr 1
  · funext s
    exact s.expire_expire hnow r.limits.maxAckAge
  · congr 1
    funext s
    change (decide (r.Recent s.lastAccess) && decide ((r.advance ms).Recent s.lastAccess)) = _
    rw [← Bool.decide_and, decide_eq_decide]
    exact and_iff_right_of_imp (hearlier s.lastAccess)

/-- A sweep keeps the sessions that were used recently, with their last use, their channels and
their counters, and of their ids those that were registered recently, as they are. Its report counts
the sessions that are gone, and the ids that are gone from the others. A second sweep at the same
time changes nothing and reports nothing, and a later one leaves what it would have left without the
first. -/
theorem sweep_exact (r : Registry) :
    (∀ token used, r.sweep.2.lastAccess? token = some used ↔
      r.lastAccess? token = some used ∧ r.now ≤ used + r.limits.maxSessionAge) ∧
    (∀ token channel id a, r.sweep.2.waiting? token channel id = some a ↔
      token ∈ r.sweep.2.live ∧ r.waiting? token channel id = some a ∧
        r.now ≤ a.registeredAt + r.limits.maxAckAge) ∧
    (∀ token channel n, r.sweep.2.counter? token channel = some n ↔
      token ∈ r.sweep.2.live ∧ r.counter? token channel = some n) ∧
    r.sweep.2.now = r.now ∧ r.sweep.2.limits = r.limits ∧
    r.sweep.1 = ⟨(r.live \ r.sweep.2.live).ncard,
      {x | x.1 ∈ r.sweep.2.live ∧ x ∈ r.pending \ r.sweep.2.pending}.ncard⟩ ∧
    r.sweep.2.sweep = (⟨0, 0⟩, r.sweep.2) ∧
    ∀ ms, (r.sweep.2.advance ms).sweep.2 = (r.advance ms).sweep.2 := by
  have hsame : r.sweep.2.sweep.2 = r.sweep.2 := r.sweep_advance_sweep 0
  refine ⟨fun _ _ => lastAccess?_sweep_eq_some_iff, fun _ _ _ _ => waiting?_sweep_eq_some_iff,
    fun _ _ _ => counter?_sweep_eq_some_iff, rfl, rfl, r.report_sweep, Prod.ext ?_ hsame,
    r.sweep_advance_sweep⟩
  rw [report_sweep, hsame]
  simp

end Registry

end EventRelay.Ack
