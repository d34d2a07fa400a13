import EventRelay.Proofs.Ack.Bounds
import EventRelay.Proofs.Ack.Isolation
import Mathlib.Logic.Relation

/-!
# One channel of a registry

Whether a channel exists makes no difference to what is done on it: one that does not exist is as
good as one that has given out nothing (`Registry.channelD`). So an operation on a channel is a
change of that channel, and of nothing else that a client could see (`Confined`).

In a registry in which only what was issued is registered, each id that waits is below the counter
of its channel (`Numbered`), and the next ids are new.
-/

namespace EventRelay.Ack

/-! ## Channels by themselves -/

namespace Channel

/-- No id waits that was not issued. -/
def Numbered (c : Channel) : Prop := ∀ id, c.nextId ≤ id → c.acks[id]? = none

/-- The next id is new, and there is no room for it. -/
def Full (limit : Nat) (c : Channel) : Prop := c.acks[c.nextId]? = none ∧ limit ≤ c.acks.size

/-- The channel after its next id was issued and registered. -/
def enrol (now : Nat) (c : Channel) : Channel :=
  { nextId := c.nextId + 1, acks := c.acks.insert c.nextId ⟨c.nextId, false, now⟩ }

/-- So many ids were issued on a channel and wait, and nothing else has changed. -/
structure Enrols (acknowledged : Bool) (now n : Nat) (c c' : Channel) : Prop where
  nextId_eq : c'.nextId = c.nextId + n
  acks : ∀ id : Nat, c'.acks[id]? =
    if c.nextId ≤ id ∧ id < c.nextId + n then some ⟨id, acknowledged, now⟩ else c.acks[id]?

variable {acknowledged : Bool} {limit now n id : Nat} {c c' : Channel}

theorem forget_empty (id : Nat) : (forget id {}).2 = {} := by
  apply ext
  · rfl
  · intro id'
    rw [acks_forget, Std.ExtTreeMap.getElem?_empty, ite_self]

theorem acknowledge_empty (id : Nat) : (acknowledge id {}).2 = {} := by
  apply ext
  · exact nextId_acknowledge id {}
  · intro id'
    rw [acks_acknowledge, Std.ExtTreeMap.getElem?_empty, Option.map_none, ite_self]

theorem register_issue (limit now : Nat) (c : Channel) :
    c.Full limit ∧
        c.issue.2.register limit now c.issue.1 = (.error (.busy .acks limit), c.issue.2) ∨
      ¬ c.Full limit ∧ c.issue.2.register limit now c.issue.1 = (.ok (), c.enrol now) := by
  by_cases hfull : c.Full limit
  · exact .inl ⟨hfull, if_pos ⟨Option.isNone_iff_eq_none.2 hfull.1, hfull.2⟩⟩
  · refine .inr ⟨hfull, if_neg ?_⟩
    rintro ⟨hnew, hsize⟩
    exact hfull ⟨Option.isNone_iff_eq_none.1 hnew, hsize⟩

namespace Numbered

theorem empty : Numbered {} := fun _ _ => Std.ExtTreeMap.getElem?_empty

theorem full_iff (h : c.Numbered) : c.Full limit ↔ limit ≤ c.acks.size :=
  and_iff_right (h c.nextId (Nat.le_refl _))

theorem enrol (h : c.Numbered) (now : Nat) : (c.enrol now).Numbered := by
  intro id hid
  change c.nextId + 1 ≤ id at hid
  rw [Channel.enrol, Table.getElem?_insert_eq, if_neg (by omega)]
  exact h id (by omega)

theorem size_enrol (h : c.Numbered) (now : Nat) : (c.enrol now).acks.size = c.acks.size + 1 := by
  rw [Channel.enrol, Table.size_insert_eq, h c.nextId (Nat.le_refl _)]
  rfl

/-- A channel with a higher counter and no other ids is numbered as well. -/
theorem skip (h : c.Numbered) (hnext : c.nextId ≤ c'.nextId) (hacks : c'.acks = c.acks) :
    c'.Numbered := by
  intro id hid
  rw [hacks]
  exact h id (Nat.le_trans hnext hid)

end Numbered

namespace Enrols

theorem refl (acknowledged : Bool) (now : Nat) (c : Channel) : Enrols acknowledged now 0 c c := by
  refine ⟨rfl, ?_⟩
  intro id
  rw [if_neg (by omega)]

theorem cons (h : Enrols false now n (c.enrol now) c') : Enrols false now (n + 1) c c' := by
  have hnext : (c.enrol now).nextId = c.nextId + 1 := rfl
  refine ⟨by rw [h.nextId_eq, hnext]; omega, ?_⟩
  intro id
  rw [h.acks, hnext, enrol, Table.getElem?_insert_eq]
  by_cases hid : c.nextId = id
  · subst hid
    rw [if_neg (by omega), if_pos rfl, if_pos (by omega)]
  · rw [if_neg hid]
    congr 1
    rw [eq_iff_iff]
    omega

theorem numbered (h : Enrols acknowledged now n c c') (hc : c.Numbered) : c'.Numbered := by
  intro id hid
  rw [h.nextId_eq] at hid
  rw [h.acks, if_neg (by omega)]
  exact hc id (by omega)

end Enrols

end Channel

/-! ## Channels of a registry -/

namespace Registry

/-- A channel of a token, one without ids where there is none. -/
def channelD (token channel : String) (r : Registry) : Channel :=
  (r.channel? token channel).getD {}

variable {r : Registry} {token channel token' channel' : String} {id : Nat} {α : Type}

theorem counter_eq_channelD : r.counter token channel = (r.channelD token channel).nextId := by
  unfold counter channelD
  cases r.channel? token channel <;> rfl

theorem waiting?_eq_channelD :
    r.waiting? token channel id = (r.channelD token channel).acks[id]? := by
  unfold waiting? channelD
  cases r.channel? token channel with
  | none => exact Std.ExtTreeMap.getElem?_empty.symm
  | some c => rfl

theorem channelD_of_absent (h : r.lastAccess? token = none) (channel : String) :
    r.channelD token channel = {} := by
  unfold channelD
  cases hc : r.channel? token channel with
  | none => rfl
  | some c =>
    obtain ⟨used, hused⟩ := lastAccess?_of_channel? hc
    rw [h] at hused
    cases hused

theorem Sound.channelD (h : r.Sound) (token channel : String) :
    (r.channelD token channel).Sound r.limits r.now := by
  unfold Registry.channelD
  cases hc : r.channel? token channel with
  | none => exact .empty r.limits r.now
  | some c =>
    obtain ⟨s, hs, hc⟩ := Option.bind_eq_some_iff.1 hc
    exact h.channels_of_getElem? hs hc

section onChannel

variable (channel : String) (f : Channel → Except Refusal α × Channel)

theorem onChannel_of_not_admits (h : ¬ r.Admits token) :
    r.onChannel token channel f = (.error (.busy .sessions r.limits.maxSessions), r) :=
  onChannel_of_error (session_of_not_admits h)

theorem onChannel_answer (h : r.Admits token) :
    (r.onChannel token channel f).1 = (f (r.channelD token channel)).1 := by
  rw [onChannel_of_ok (session_of_admits h), channelD]

theorem channelD_onChannel (h : r.Admits token) :
    (r.onChannel token channel f).2.channelD token channel = (f (r.channelD token channel)).2 := by
  rw [channelD, channel?_onChannel (session_of_admits h), if_pos ⟨rfl, rfl⟩, channelD]
  rfl

end onChannel

theorem channelD_onExisting {absent : α} {f : Channel → α × Channel} (hf : (f {}).2 = {}) :
    (r.onExisting token channel absent f).2.channelD token channel =
      (f (r.channelD token channel)).2 := by
  unfold channelD
  rw [channel?_onExisting, if_pos ⟨rfl, rfl⟩]
  cases r.channel? token channel with
  | none => exact hf.symm
  | some c => rfl

end Registry

/-! ### What is done on one channel -/

/-- Operations of some kind lead from one registry to another. -/
def Operation.Leads (P : Operation → Prop) : Registry → Registry → Prop :=
  Relation.ReflTransGen fun r r' => ∃ op, P op ∧ (op.run r).2 = r'

theorem Operation.Leads.one {P : Operation → Prop} (op : Operation) (hop : P op) (r : Registry) :
    Leads P r (op.run r).2 :=
  .single ⟨op, hop, rfl⟩

namespace Registry

variable {r : Registry} {token channel token' channel' : String} {id : Nat} {α : Type}

/-- What is done on a channel of a token is seen there only. -/
structure Confined (token channel : String) (r r' : Registry) : Prop where
  limits_eq : r'.limits = r.limits
  now_eq : r'.now = r.now
  admits : r.Admits token → r'.Admits token
  sound : r.Sound → r'.Sound
  channelD_eq : ∀ {token' channel' : String}, ¬ (token = token' ∧ channel = channel') →
    r'.channelD token' channel' = r.channelD token' channel'

namespace Confined

variable {r' r'' : Registry}

theorem refl (token channel : String) (r : Registry) : Confined token channel r r :=
  ⟨rfl, rfl, fun h => h, fun h => h, fun _ => rfl⟩

theorem trans (h : Confined token channel r r') (h' : Confined token channel r' r'') :
    Confined token channel r r'' where
  limits_eq := h'.limits_eq.trans h.limits_eq
  now_eq := h'.now_eq.trans h.now_eq
  admits hr := h'.admits (h.admits hr)
  sound hr := h'.sound (h.sound hr)
  channelD_eq hne := (h'.channelD_eq hne).trans (h.channelD_eq hne)

theorem run (op : Operation) (hop : op.channel? = some (token, channel)) :
    Confined token channel r (op.run r).2 where
  limits_eq := Operation.limits_run op r
  now_eq := by
    apply Operation.now_run_of_ne_advance
    rintro ms rfl
    cases hop
  admits hr := by
    rcases Operation.run_cases op r with ⟨t, ht, -, hused⟩ | rfl | ⟨ms, rfl⟩ | ⟨hsame, -⟩
    · obtain rfl : t = token := by
        cases op <;> cases hop <;> cases ht <;> rfl
      rcases hused with ⟨s, hput⟩ | ⟨hsame, -⟩
      · rw [hput]
        exact .inl (by rw [lastAccess?_put, if_pos rfl]; exact Option.some_ne_none _)
      · rwa [hsame]
    · cases hop
    · cases hop
    · rwa [hsame]
  sound hr := hr.run op
  channelD_eq hne := by
    unfold channelD
    rw [Operation.channel?_run_of_ne]
    · rintro rfl
      cases hop
    · rw [hop]
      intro heq
      cases heq
      exact hne ⟨rfl, rfl⟩

/-- Operations on the channel, one after another, are confined to it. -/
theorem of_leads {P : Operation → Prop} (hP : ∀ op, P op → op.channel? = some (token, channel))
    (h : Operation.Leads P r r') : Confined token channel r r' := by
  induction h with
  | refl => exact .refl ..
  | tail _ hstep ih =>
    obtain ⟨op, hop, rfl⟩ := hstep
    exact ih.trans (.run op (hP op hop))

/-- If the channel itself is as before as well, all channels are. -/
theorem channelD_eq_of_self (h : Confined token channel r r')
    (hself : r'.channelD token channel = r.channelD token channel) (token' channel' : String) :
    r'.channelD token' channel' = r.channelD token' channel' := by
  by_cases hsame : token = token' ∧ channel = channel'
  · obtain ⟨rfl, rfl⟩ := hsame
    exact hself
  · exact h.channelD_eq hsame

end Confined

/-- What is done to one id after another, and is the same if done twice, is done to each of them. -/
theorem channelD_foldl {f : Nat → Channel → Bool × Channel} {g : Option Ack → Option Ack}
    (hempty : ∀ id, (f id {}).2 = {}) (hnext : ∀ id c, (f id c).2.nextId = c.nextId)
    (hacks : ∀ id id' c, (f id c).2.acks[id']? = if id = id' then g c.acks[id']? else c.acks[id']?)
    (htwice : ∀ a, g (g a) = g a) (ids : List Nat) (r : Registry) :
    let after := ids.foldl (fun r id => (r.onExisting token channel false (f id)).2) r
    (after.channelD token channel).nextId = (r.channelD token channel).nextId ∧
      ∀ id : Nat, (after.channelD token channel).acks[id]? =
        if id ∈ ids then g (r.channelD token channel).acks[id]?
        else (r.channelD token channel).acks[id]? := by
  induction ids generalizing r with
  | nil => simp
  | cons first ids ih =>
    obtain ⟨hnextIds, hacksIds⟩ := ih (r.onExisting token channel false (f first)).2
    rw [channelD_onExisting (hempty first)] at hnextIds hacksIds
    refine ⟨hnextIds.trans (hnext first _), ?_⟩
    intro id
    refine (hacksIds id).trans ?_
    rw [hacks]
    by_cases hid : id ∈ ids <;> by_cases hfirst : first = id
    · simp [hid, hfirst, htwice]
    · simp [hid, hfirst]
    · simp [hid, hfirst]
    · simp [hid, hfirst, Ne.symm hfirst]

/-! ### Numbered registries -/

/-- No id waits on any channel that was not issued there. -/
def Numbered (r : Registry) : Prop := ∀ token channel, (r.channelD token channel).Numbered

theorem Numbered.empty (limits : Limits) (now : Nat) : Numbered { limits, now } := by
  intro token channel
  rw [channelD_of_absent (by simp [lastAccess?])]
  exact Channel.Numbered.empty

end Registry

namespace Operation

open Registry

variable {op : Operation} {r : Registry} {token channel : String} {id : Nat}

/-- What waits without having been registered waited before. -/
theorem waiting?_of_waiting?_run {a : Ack} (hreg : ¬ (op.moment r).Registers token channel id)
    (ha : (op.run r).2.waiting? token channel id = some a) :
    ∃ a₀, r.waiting? token channel id = some a₀ := by
  by_cases hrem : (op.moment r).Removes token channel id
  · rw [waiting?_run_of_removes hrem] at ha
    cases ha
  by_cases hmark : (op.moment r).Marks token channel id
  · rw [waiting?_run_of_marks hmark] at ha
    obtain ⟨a₀, ha₀, -⟩ := Option.map_eq_some_iff.1 ha
    exact ⟨a₀, ha₀⟩
  by_cases hsweep : op = .sweep
  · subst hsweep
    exact ⟨a, waiting?_of_waiting?_sweep ha⟩
  · exact ⟨a, by rwa [waiting?_run_of_other hreg hrem hmark hsweep] at ha⟩

/-- Whatever registers nothing keeps a registry numbered. -/
theorem numbered_run (h : r.Numbered) (hop : ∀ t c i, op ≠ .registerAck t c i) :
    (op.run r).2.Numbered := by
  intro token channel id hid
  rw [← counter_eq_channelD] at hid
  rw [← waiting?_eq_channelD]
  cases ha : (op.run r).2.waiting? token channel id with
  | none => rfl
  | some a =>
    have hreg : ¬ (op.moment r).Registers token channel id := fun hreg => hop _ _ _ hreg.1
    obtain ⟨a₀, ha₀⟩ := waiting?_of_waiting?_run hreg ha
    obtain ⟨used, hused⟩ := lastAccess?_of_waiting? ha₀
    have hrecent : op = .sweep → r.Recent used := by
      rintro rfl
      refine Decidable.by_contra fun hidle => ?_
      rw [run, waiting?_sweep_of_idle] at ha
      · cases ha
      · intro used' hused'
        rw [hused] at hused'
        cases hused'
        exact hidle
    -- the session lives, so the counter has not fallen
    have hcounter := (live_run hused hrecent channel).2
    have hnone := h token channel id (by rw [← counter_eq_channelD]; omega)
    rw [← waiting?_eq_channelD, ha₀] at hnone
    cases hnone

end Operation

end EventRelay.Ack
