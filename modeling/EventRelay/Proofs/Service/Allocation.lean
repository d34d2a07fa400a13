import EventRelay.Proofs.Ack.Channels
import EventRelay.Service.Basic

/-!
# The ids of a batch in the registry

What allocating, releasing and acknowledging the ids of a batch does to the registry. All of it is
done on the channel of the batch, by a few kinds of operations (`Allocates`), so it is confined to
that channel, and only what acknowledges the ids marks anything (`Unmarked`).

On the channel a batch gets the next ids, one for each event (`allocate_ok`), if there is room for
all of them (`exists_allocate_of_room`). Otherwise as many ids are used up as there is room for, and
one more, but none of them is left waiting (`allocate_of_full`). Releasing the ids of a batch leaves
what waited before (`release_of_enrols`), and acknowledging them acknowledges no other id
(`acked_of_acked_acknowledge`).
-/

namespace EventRelay.Service

open Ack

/-- A registry that came from another one at the same time without anything being marked. -/
structure Unmarked (r r' : Registry) : Prop where
  now_eq : r'.now = r.now
  acked : ∀ (token channel : String) (id : Nat),
    r'.acked token channel id = true → r.acked token channel id = true

namespace Unmarked

variable {r r' r'' : Registry}

theorem refl (r : Registry) : Unmarked r r := ⟨rfl, fun _ _ _ => id⟩

theorem trans (h : Unmarked r r') (h' : Unmarked r' r'') : Unmarked r r'' :=
  ⟨h'.now_eq.trans h.now_eq, fun t c id hack => h.acked t c id (h'.acked t c id hack)⟩

theorem run (op : Ack.Operation)
    (hmark : ∀ token channel id, op ≠ .markAcknowledged token channel id)
    (htime : ∀ ms, op ≠ .advance ms) : Unmarked r (op.run r).2 where
  now_eq := Operation.now_run_of_ne_advance htime
  acked t c id := Operation.acked_of_acked_run op (hmark t c id)

end Unmarked

variable {r r' : Registry} {token channel : String} {id n now : Nat} {ids : List Nat}
  {e : Refusal}

/-! ## What is done -/

/-- What is done to get ids on a channel and to forget them. -/
def Allocates (token channel : String) (op : Ack.Operation) : Prop :=
  op.channel? = some (token, channel) ∧ ∀ id, op ≠ .markAcknowledged token channel id

theorem confined_of_leads (h : Operation.Leads (Allocates token channel) r r') :
    Registry.Confined token channel r r' :=
  .of_leads (fun _ hop => hop.1) h

theorem unmarked_of_leads (h : Operation.Leads (Allocates token channel) r r') :
    Unmarked r r' := by
  induction h with
  | refl => exact .refl _
  | tail _ hstep ih =>
    obtain ⟨op, ⟨hchannel, hmark⟩, rfl⟩ := hstep
    apply ih.trans (.run op _ _)
    · rintro t c id rfl
      cases hchannel
      exact hmark id rfl
    · rintro ms rfl
      cases hchannel

theorem leads_ensureChannel :
    Operation.Leads (Allocates token channel) r (r.ensureChannel token channel).2 :=
  .one (.ensureChannel token channel) ⟨rfl, nofun⟩ r

theorem leads_deleteAck :
    Operation.Leads (Allocates token channel) r (r.deleteAck token channel id).2 :=
  .one (.deleteAck token channel id) ⟨rfl, nofun⟩ r

theorem leads_nextAckId :
    Operation.Leads (Allocates token channel) r (r.nextAckId token channel).2 :=
  .one (.nextAckId token channel) ⟨rfl, nofun⟩ r

theorem leads_registerAck :
    Operation.Leads (Allocates token channel) r (r.registerAck token channel id).2 :=
  .one (.registerAck token channel id) ⟨rfl, nofun⟩ r

theorem leads_allocateOne :
    Operation.Leads (Allocates token channel) r (allocateOne token channel r).2 := by
  simp only [allocateOne]
  split
  · exact leads_nextAckId
  · exact leads_nextAckId.trans leads_registerAck

theorem leads_allocateMore :
    Operation.Leads (Allocates token channel) r (allocateMore token channel n r).2 := by
  induction n generalizing r with
  | zero => exact .refl
  | succ n ih =>
    simp only [allocateMore]
    split
    · exact leads_allocateOne
    · split
      · exact leads_allocateOne.trans ih
      · exact (leads_allocateOne.trans ih).trans leads_deleteAck

theorem leads_allocate :
    Operation.Leads (Allocates token channel) r (allocate token channel n r).2 := by
  simp only [allocate]
  split
  · exact leads_ensureChannel
  · exact leads_ensureChannel.trans leads_allocateMore

theorem leads_release :
    Operation.Leads (Allocates token channel) r (release token channel ids r) := by
  induction ids generalizing r with
  | nil => exact .refl
  | cons id ids ih => exact leads_deleteAck.trans ih

theorem confined_ensureChannel (token channel : String) (r : Registry) :
    Registry.Confined token channel r (r.ensureChannel token channel).2 :=
  confined_of_leads leads_ensureChannel

theorem confined_allocateOne (token channel : String) (r : Registry) :
    Registry.Confined token channel r (allocateOne token channel r).2 :=
  confined_of_leads leads_allocateOne

theorem confined_allocate (token channel : String) (n : Nat) (r : Registry) :
    Registry.Confined token channel r (allocate token channel n r).2 :=
  confined_of_leads leads_allocate

theorem unmarked_idsFor (token : String) (named : Option String) (n : Nat) (r : Registry) :
    Unmarked r (idsFor token named n r).2 := by
  cases named with
  | none => exact unmarked_of_leads leads_ensureChannel
  | some channel => exact unmarked_of_leads leads_allocate

theorem unmarked_release : Unmarked r (release token channel ids r) :=
  unmarked_of_leads leads_release

theorem confined_acknowledge :
    Registry.Confined token channel r (acknowledge token channel ids r) := by
  induction ids generalizing r with
  | nil => exact .refl ..
  | cons id ids ih =>
    have hfirst : Registry.Confined token channel r (r.markAcknowledged token channel id).2 :=
      .run (.markAcknowledged token channel id) rfl
    exact hfirst.trans ih

/-! ## One id -/

theorem ensureChannel_of_not_admits (h : ¬ r.Admits token) :
    r.ensureChannel token channel = (.error (.busy .sessions r.limits.maxSessions), r) :=
  Registry.onChannel_of_not_admits channel _ h

theorem ensureChannel_of_admits (channel : String) (h : r.Admits token) :
    (r.ensureChannel token channel).1 = .ok () ∧
      (r.ensureChannel token channel).2.channelD token channel = r.channelD token channel :=
  ⟨Registry.onChannel_answer channel _ h, Registry.channelD_onChannel channel _ h⟩

theorem allocateOne_of_not_admits (h : ¬ r.Admits token) :
    allocateOne token channel r = (.error (.busy .sessions r.limits.maxSessions), r) := by
  have hnext : r.nextAckId token channel = (.error (.busy .sessions r.limits.maxSessions), r) :=
    Registry.onChannel_of_not_admits channel _ h
  simp only [allocateOne, hnext]

/-- A token that is admitted is refused an id where there is no room for it, and only the counter
moves; otherwise it gets the next id, which waits from now on. -/
theorem allocateOne_of_admits (channel : String) (h : r.Admits token) :
    ((r.channelD token channel).Full r.limits.maxAcks ∧
      (allocateOne token channel r).1 = .error (.busy .acks r.limits.maxAcks) ∧
      (allocateOne token channel r).2.channelD token channel =
        (r.channelD token channel).issue.2) ∨
    (¬ (r.channelD token channel).Full r.limits.maxAcks ∧
      (allocateOne token channel r).1 = .ok (r.channelD token channel).nextId ∧
      (allocateOne token channel r).2.channelD token channel =
        (r.channelD token channel).enrol r.now) := by
  have hissued : (r.nextAckId token channel).1 = .ok (r.channelD token channel).issue.1 :=
    Registry.onChannel_answer channel _ h
  have hnext : (r.nextAckId token channel).2.channelD token channel =
      (r.channelD token channel).issue.2 :=
    Registry.channelD_onChannel channel _ h
  have hconfined : Registry.Confined token channel r (r.nextAckId token channel).2 :=
    confined_of_leads leads_nextAckId
  have hregister := Registry.onChannel_answer channel
    (Channel.register r.limits.maxAcks r.now (r.channelD token channel).issue.1)
    (hconfined.admits h)
  have hregistered := Registry.channelD_onChannel channel
    (Channel.register r.limits.maxAcks r.now (r.channelD token channel).issue.1)
    (hconfined.admits h)
  rw [hnext] at hregister hregistered
  simp only [allocateOne, hissued, Registry.registerAck, hconfined.limits_eq, hconfined.now_eq,
    hregister, hregistered]
  rcases Channel.register_issue r.limits.maxAcks r.now (r.channelD token channel) with
    ⟨hfull, heq⟩ | ⟨hroom, heq⟩
  · rw [heq]
    exact .inl ⟨hfull, rfl, rfl⟩
  · rw [heq]
    exact .inr ⟨hroom, rfl, rfl⟩

theorem allocateOne_ok (h : (allocateOne token channel r).1 = .ok id) :
    id = (r.channelD token channel).nextId ∧
      (allocateOne token channel r).2.channelD token channel =
        (r.channelD token channel).enrol r.now := by
  by_cases hadmits : r.Admits token
  · rcases allocateOne_of_admits channel hadmits with
      ⟨-, hanswer, -⟩ | ⟨-, hanswer, hafter⟩
    · rw [h] at hanswer
      cases hanswer
    · rw [h] at hanswer
      cases hanswer
      exact ⟨rfl, hafter⟩
  · rw [allocateOne_of_not_admits hadmits] at h
    cases h

/-! ## So many ids -/

theorem allocateMore_succ_ok (h : (allocateMore token channel (n + 1) r).1 = .ok ids) :
    ∃ id rest, ids = id :: rest ∧ (allocateOne token channel r).1 = .ok id ∧
      (allocateMore token channel n (allocateOne token channel r).2).1 = .ok rest ∧
      (allocateMore token channel (n + 1) r).2 =
        (allocateMore token channel n (allocateOne token channel r).2).2 := by
  simp only [allocateMore] at h
  split at h
  · cases h
  · next id hid =>
    split at h
    · next rest hrest =>
      cases h
      exact ⟨id, rest, rfl, hid, hrest, by simp only [allocateMore, hid, hrest]⟩
    · cases h

theorem allocateMore_ok (h : (allocateMore token channel n r).1 = .ok ids) :
    ids = List.range' (r.channelD token channel).nextId n ∧
      (r.channelD token channel).Enrols false r.now n
        ((allocateMore token channel n r).2.channelD token channel) := by
  induction n generalizing r ids with
  | zero => cases h; exact ⟨rfl, .refl ..⟩
  | succ n ih =>
    obtain ⟨first, rest, rfl, hfirst, hrest, hstate⟩ := allocateMore_succ_ok h
    obtain ⟨rfl, hone⟩ := allocateOne_ok hfirst
    have hnow : (allocateOne token channel r).2.now = r.now :=
      (confined_allocateOne token channel r).now_eq
    obtain ⟨hids, henrols⟩ := ih hrest
    rw [hone] at hids henrols
    rw [hnow] at henrols
    rw [hstate, hids]
    exact ⟨rfl, henrols.cons⟩

section Room

variable {c : Channel}

/-- Where there is room for all of them, so many ids are issued. -/
theorem exists_allocateMore_of_room (hadmits : r.Admits token)
    (hnumbered : (r.channelD token channel).Numbered)
    (hroom : (r.channelD token channel).acks.size + n ≤ r.limits.maxAcks) :
    ∃ ids, (allocateMore token channel n r).1 = .ok ids := by
  induction n generalizing r with
  | zero => exact ⟨[], rfl⟩
  | succ n ih =>
    have hconfined := confined_allocateOne token channel r
    rcases allocateOne_of_admits channel hadmits with
      ⟨hfull, -, -⟩ | ⟨-, hid, hone⟩
    · have hsize := hnumbered.full_iff.1 hfull
      omega
    · obtain ⟨ids, hids⟩ : ∃ ids,
          (allocateMore token channel n (allocateOne token channel r).2).1 = .ok ids := by
        apply ih (hconfined.admits hadmits)
        · rw [hone]
          exact hnumbered.enrol r.now
        · rw [hone, hconfined.limits_eq, hnumbered.size_enrol]
          omega
      exact ⟨(r.channelD token channel).nextId :: ids, by simp only [allocateMore, hid, hids]⟩

/-- Where there is no room for all of them, ids are used up until one is refused, and then all of
them are forgotten. -/
theorem allocateMore_of_full (hadmits : r.Admits token) (hc : r.channelD token channel = c)
    (hnumbered : c.Numbered) (hsize : c.acks.size ≤ r.limits.maxAcks)
    (hfull : r.limits.maxAcks < c.acks.size + n) :
    (allocateMore token channel n r).1 = .error (.busy .acks r.limits.maxAcks) ∧
      (allocateMore token channel n r).2.channelD token channel =
        { c with nextId := c.nextId + (r.limits.maxAcks - c.acks.size) + 1 } := by
  induction n generalizing r c with
  | zero => omega
  | succ n ih =>
    have hconfined := confined_allocateOne token channel r
    have hcases := allocateOne_of_admits channel hadmits
    rw [hc] at hcases
    rcases hcases with ⟨hnone, hrefused, hone⟩ | ⟨hroom, hid, hone⟩
    · -- the first is refused already
      have hnoroom := hnumbered.full_iff.1 hnone
      simp only [allocateMore, hrefused, true_and]
      refine hone.trans ?_
      rw [Nat.sub_eq_zero_of_le hnoroom]
      rfl
    · rw [hnumbered.full_iff] at hroom
      have hgrown := hnumbered.size_enrol r.now
      obtain ⟨hrest, hafter⟩ := ih (hconfined.admits hadmits) hone (hnumbered.enrol r.now)
        (by rw [hconfined.limits_eq]; omega) (by rw [hconfined.limits_eq]; omega)
      rw [hconfined.limits_eq] at hrest hafter
      simp only [allocateMore, hid, hrest, true_and]
      rw [Registry.deleteAck, Registry.channelD_onExisting (Channel.forget_empty _), hafter, hgrown]
      -- the id is forgotten again, so what waits is what waited before
      apply Channel.ext
      · change c.nextId + 1 + _ + 1 = c.nextId + _ + 1
        omega
      · intro id
        rw [Channel.acks_forget, Channel.enrol, Table.getElem?_insert_eq]
        split
        · next heq =>
          subst heq
          exact (hnumbered c.nextId (Nat.le_refl _)).symm
        · rfl

end Room

/-! ## The ids of a batch -/

theorem allocate_of_not_admits (channel : String) (n : Nat) (h : ¬ r.Admits token) :
    allocate token channel n r = (.error (.busy .sessions r.limits.maxSessions), r) := by
  simp only [allocate, ensureChannel_of_not_admits h]

theorem allocate_of_admits (h : r.Admits token) :
    allocate token channel n r =
      allocateMore token channel n (r.ensureChannel token channel).2 := by
  simp only [allocate, (ensureChannel_of_admits channel h).1]

/-- A batch gets the next ids of its channel, and all of them wait. -/
theorem allocate_ok (h : (allocate token channel n r).1 = .ok ids) :
    ids = List.range' (r.channelD token channel).nextId n ∧
      (r.channelD token channel).Enrols false r.now n
        ((allocate token channel n r).2.channelD token channel) := by
  by_cases hadmits : r.Admits token
  · have hconfined := confined_ensureChannel token channel r
    obtain ⟨-, hsame⟩ := ensureChannel_of_admits channel hadmits
    rw [allocate_of_admits hadmits] at h ⊢
    rw [← hsame, ← hconfined.now_eq]
    exact allocateMore_ok h
  · rw [allocate_of_not_admits channel n hadmits] at h
    cases h

theorem exists_allocate_of_room (hadmits : r.Admits token)
    (hnumbered : (r.channelD token channel).Numbered)
    (hroom : (r.channelD token channel).acks.size + n ≤ r.limits.maxAcks) :
    ∃ ids, (allocate token channel n r).1 = .ok ids := by
  have hconfined := confined_ensureChannel token channel r
  obtain ⟨-, hsame⟩ := ensureChannel_of_admits channel hadmits
  rw [allocate_of_admits hadmits]
  rw [← hsame] at hnumbered hroom
  rw [← hconfined.limits_eq] at hroom
  exact exists_allocateMore_of_room (hconfined.admits hadmits) hnumbered hroom

/-- A batch for which there is no room is refused. It uses up numbers, but the ids that wait are
those that waited before. -/
theorem allocate_of_full (hadmits : r.Admits token)
    (hnumbered : (r.channelD token channel).Numbered)
    (hsize : (r.channelD token channel).acks.size ≤ r.limits.maxAcks)
    (hfull : r.limits.maxAcks < (r.channelD token channel).acks.size + n) :
    (allocate token channel n r).1 = .error (.busy .acks r.limits.maxAcks) ∧
      ((allocate token channel n r).2.channelD token channel).acks =
        (r.channelD token channel).acks ∧
      ((allocate token channel n r).2.channelD token channel).nextId =
        (r.channelD token channel).nextId +
          (r.limits.maxAcks - (r.channelD token channel).acks.size + 1) := by
  have hconfined := confined_ensureChannel token channel r
  obtain ⟨-, hsame⟩ := ensureChannel_of_admits channel hadmits
  rw [← hconfined.limits_eq] at hsize hfull
  obtain ⟨hrefused, hafter⟩ :=
    allocateMore_of_full (hconfined.admits hadmits) hsame hnumbered hsize hfull
  rw [hconfined.limits_eq] at hrefused hafter
  rw [allocate_of_admits hadmits, hafter]
  exact ⟨hrefused, rfl, rfl⟩

/-- Events that name no channel get no ids, and change no channel. -/
theorem idsFor_none_cases (token : String) (n : Nat) (r : Registry) :
    (¬ r.Admits token ∧
      idsFor token none n r = (.error (.busy .sessions r.limits.maxSessions), r)) ∨
    (r.Admits token ∧ (idsFor token none n r).1 = .ok [] ∧
      ∀ token' channel' : String,
        (idsFor token none n r).2.channelD token' channel' = r.channelD token' channel') := by
  by_cases hadmits : r.Admits token
  · obtain ⟨hok, hsame⟩ := ensureChannel_of_admits defaultChannel hadmits
    refine .inr ⟨hadmits, by simp only [idsFor, hok]; rfl, ?_⟩
    exact (confined_ensureChannel token defaultChannel r).channelD_eq_of_self hsame
  · exact .inl ⟨hadmits, by simp only [idsFor, ensureChannel_of_not_admits hadmits]; rfl⟩

theorem idsFor_none_ok (h : (idsFor token none n r).1 = .ok ids) : ids = [] := by
  rcases idsFor_none_cases token n r with ⟨-, hanswer⟩ | ⟨-, hanswer, -⟩
  · rw [hanswer] at h
    cases h
  · rw [h] at hanswer
    cases hanswer
    rfl

/-- An id waits since just now and is not acknowledged. -/
def Fresh (token channel : String) (id : Nat) (r : Registry) : Prop :=
  r.waiting? token channel id = some ⟨id, false, r.now⟩

/-- A batch on a channel gets an id for each event, and all of them wait. -/
theorem idsFor_ok (h : (idsFor token (some channel) n r).1 = .ok ids) :
    ids.length = n ∧ ∀ id ∈ ids, Fresh token channel id (idsFor token (some channel) n r).2 := by
  obtain ⟨rfl, henrols⟩ := allocate_ok h
  refine ⟨List.length_range', ?_⟩
  intro id hid
  rw [Fresh, Registry.waiting?_eq_channelD, idsFor, henrols.acks, if_pos (List.mem_range'_1.1 hid),
    (confined_allocate token channel n r).now_eq]

/-! ## Refusing -/

theorem isBusy_of_allocateOne (h : (allocateOne token channel r).1 = .error e) :
    e.isBusy = true := by
  by_cases hadmits : r.Admits token
  · rcases allocateOne_of_admits channel hadmits with
      ⟨-, hanswer, -⟩ | ⟨-, hanswer, -⟩
    · rw [h] at hanswer
      cases hanswer
      rfl
    · rw [h] at hanswer
      cases hanswer
  · rw [allocateOne_of_not_admits hadmits] at h
    cases h
    rfl

theorem isBusy_of_allocateMore (h : (allocateMore token channel n r).1 = .error e) :
    e.isBusy = true := by
  induction n generalizing r with
  | zero => cases h
  | succ n ih =>
    simp only [allocateMore] at h
    split at h
    · next e' he =>
      cases h
      exact isBusy_of_allocateOne he
    · split at h
      · cases h
      · next e' he =>
        cases h
        exact ih he

/-- The ids of a batch are refused only at a limit of the registry. -/
theorem isBusy_of_idsFor {named : Option String} (h : (idsFor token named n r).1 = .error e) :
    e.isBusy = true := by
  by_cases hadmits : r.Admits token
  · cases named with
    | none =>
      rcases idsFor_none_cases token n r with ⟨hnot, -⟩ | ⟨-, hanswer, -⟩
      · exact absurd hadmits hnot
      · rw [h] at hanswer
        cases hanswer
    | some channel =>
      rw [idsFor, allocate_of_admits hadmits] at h
      exact isBusy_of_allocateMore h
  · cases named with
    | none =>
      simp only [idsFor, ensureChannel_of_not_admits hadmits] at h
      cases h
      rfl
    | some channel =>
      rw [idsFor, allocate_of_not_admits channel n hadmits] at h
      cases h
      rfl

/-! ## Releasing and acknowledging -/

theorem channelD_release (token channel : String) (ids : List Nat) (r : Registry) :
    ((release token channel ids r).channelD token channel).nextId =
        (r.channelD token channel).nextId ∧
      ∀ id : Nat, ((release token channel ids r).channelD token channel).acks[id]? =
        if id ∈ ids then none else (r.channelD token channel).acks[id]? :=
  Registry.channelD_foldl Channel.forget_empty (fun _ _ => rfl) Channel.acks_forget
    (g := fun _ => none) (fun _ => rfl) ids r

theorem channelD_acknowledge (token channel : String) (ids : List Nat) (r : Registry) :
    ((acknowledge token channel ids r).channelD token channel).nextId =
        (r.channelD token channel).nextId ∧
      ∀ id : Nat, ((acknowledge token channel ids r).channelD token channel).acks[id]? =
        if id ∈ ids then (r.channelD token channel).acks[id]?.map ({ · with acknowledged := true })
        else (r.channelD token channel).acks[id]? :=
  Registry.channelD_foldl Channel.acknowledge_empty Channel.nextId_acknowledge
    Channel.acks_acknowledge (fun a => by cases a <;> rfl) ids r

/-- Releasing what a batch was given leaves the ids that waited before it. -/
theorem release_of_enrols {c : Channel} (hc : c.Numbered)
    (henrols : c.Enrols false now n (r.channelD token channel)) :
    ((release token channel (List.range' c.nextId n) r).channelD token channel).acks = c.acks ∧
      ((release token channel (List.range' c.nextId n) r).channelD token channel).nextId =
        c.nextId + n := by
  obtain ⟨hnext, hacks⟩ := channelD_release token channel (List.range' c.nextId n) r
  refine ⟨Std.ExtTreeMap.ext_getElem? fun id => ?_, hnext.trans henrols.nextId_eq⟩
  rw [hacks, henrols.acks]
  simp only [List.mem_range'_1]
  split
  · next hmem => exact (hc id hmem.1).symm
  · rfl

/-- Acknowledging what a batch was given acknowledges all of it. -/
theorem enrols_acknowledge {c : Channel}
    (henrols : c.Enrols false now n (r.channelD token channel)) :
    c.Enrols true now n
      ((acknowledge token channel (List.range' c.nextId n) r).channelD token channel) := by
  obtain ⟨hnext, hacks⟩ := channelD_acknowledge token channel (List.range' c.nextId n) r
  refine ⟨hnext.trans henrols.nextId_eq, ?_⟩
  intro id
  rw [hacks, henrols.acks]
  simp only [List.mem_range'_1]
  split <;> rfl

/-- Acknowledging a batch acknowledges its ids and no other. -/
theorem acked_of_acked_acknowledge {token' channel' : String}
    (hid : ¬ (token = token' ∧ channel = channel' ∧ id ∈ ids))
    (h : (acknowledge token channel ids r).acked token' channel' id = true) :
    r.acked token' channel' id = true := by
  rw [Registry.acked, Registry.waiting?_eq_channelD] at h ⊢
  by_cases hsame : token = token' ∧ channel = channel'
  · obtain ⟨rfl, rfl⟩ := hsame
    rwa [(channelD_acknowledge token channel ids r).2, if_neg fun hmem => hid ⟨rfl, rfl, hmem⟩] at h
  · rwa [confined_acknowledge.channelD_eq hsame] at h

end EventRelay.Service
