import EventRelay.Ack.Operation

/-!
# What an operation does to what can be looked up

A registry is seen through three look-ups: the last use of a session (`lastAccess?`), a channel
(`channel?`) and an id that waits in it (`waiting?`). Each operation is described once by what it
does to them, first the two ways in which an operation reaches a channel (`onChannel` opens it,
`onExisting` does not) and the sweep, then the operations on an id. Nothing later opens an
operation again.
-/

namespace EventRelay.Ack

/-! ## Tables -/

namespace Table

variable {α β : Type} [Ord α] [Std.TransOrd α] [Std.LawfulEqOrd α] [DecidableEq α]

theorem getElem?_insert_eq (t : Table α β) (k a : α) (v : β) :
    (t.insert k v)[a]? = if k = a then some v else t[a]? := by
  rw [Std.ExtTreeMap.getElem?_insert]
  simp only [Std.LawfulEqCmp.compare_eq_iff_eq]

theorem getElem?_erase_eq (t : Table α β) (k a : α) :
    (t.erase k)[a]? = if k = a then none else t[a]? := by
  rw [Std.ExtTreeMap.getElem?_erase]
  simp only [Std.LawfulEqCmp.compare_eq_iff_eq]

end Table

/-! ## The ids of a channel -/

namespace Channel

theorem ext {c c' : Channel} (hnext : c.nextId = c'.nextId)
    (hacks : ∀ id : Nat, c.acks[id]? = c'.acks[id]?) : c = c' := by
  obtain ⟨next, acks⟩ := c
  obtain ⟨next', acks'⟩ := c'
  obtain rfl : next = next' := hnext
  obtain rfl : acks = acks' := Std.ExtTreeMap.ext_getElem? fun id => hacks id
  rfl

theorem acks_register_ok {limit now id : Nat} {c : Channel}
    (h : (c.register limit now id).1 = .ok ()) :
    (c.register limit now id).2.acks = c.acks.insert id ⟨id, false, now⟩ := by
  unfold register at h ⊢
  split at h
  · cases h
  · next hroom => rw [if_neg hroom]

theorem register_error {limit now id : Nat} {c : Channel} {e : Refusal}
    (h : (c.register limit now id).1 = .error e) : (c.register limit now id).2 = c := by
  unfold register at h ⊢
  split
  · rfl
  · next hroom => rw [if_neg hroom] at h; cases h

theorem acks_acknowledge (id id' : Nat) (c : Channel) :
    (c.acknowledge id).2.acks[id']? =
      if id = id' then c.acks[id']?.map ({ · with acknowledged := true }) else c.acks[id']? := by
  unfold acknowledge
  split
  · next a ha =>
    rw [Table.getElem?_insert_eq]
    split
    · next h => subst h; rw [ha]; rfl
    · rfl
  · next ha =>
    split
    · next h => subst h; rw [ha]; rfl
    · rfl

theorem acks_forget (id id' : Nat) (c : Channel) :
    (c.forget id).2.acks[id']? = if id = id' then none else c.acks[id']? :=
  Table.getElem?_erase_eq c.acks id id'

/-- A query forgets the ids that it names, whatever their status. -/
theorem acks_report (ids : List Int) (found : Statuses) (c : Channel) (id : Nat) :
    (c.report ids found).2.acks[id]? = if (id : Int) ∈ ids then none else c.acks[id]? := by
  induction ids generalizing found c with
  | nil => simp [report]
  | cons named ids ih =>
    cases named with
    | ofNat n =>
      have hcast : (id : Int) = Int.ofNat n ↔ n = id := by rw [Int.ofNat_eq_natCast]; omega
      rw [report, ih, acks_forget]
      simp only [List.mem_cons, hcast]
      by_cases h : n = id <;> by_cases h' : (id : Int) ∈ ids <;> simp [h, h']
    | negSucc n =>
      have hcast : ¬ (id : Int) = Int.negSucc n := by omega
      rw [report, ih]
      simp only [List.mem_cons, hcast, false_or]

theorem acks_expire (now maxAge id : Nat) (c : Channel) :
    (c.expire now maxAge).acks[id]? =
      c.acks[id]?.filter fun a => decide (now - a.registeredAt ≤ maxAge) :=
  Std.ExtTreeMap.getElem?_filter'

end Channel

/-! ## Sessions, channels and ids of a registry -/

namespace Registry

/-- What is kept of an id. -/
def waiting? (token channel : String) (id : Nat) (r : Registry) : Option Ack :=
  (r.channel? token channel).bind fun c => c.acks[id]?

/-- When a token was last used, if it has a session. -/
def lastAccess? (token : String) (r : Registry) : Option Nat :=
  r.sessions[token]?.map Session.lastAccess

variable {r : Registry} {token channel : String}

theorem sessions_put (s : Session) (token' : String) :
    (r.put token s).sessions[token']? =
      if token = token' then some { s with lastAccess := r.now } else r.sessions[token']? :=
  Table.getElem?_insert_eq r.sessions token token' _

theorem lastAccess?_put (s : Session) (token' : String) :
    (r.put token s).lastAccess? token' =
      if token = token' then some r.now else r.lastAccess? token' := by
  unfold lastAccess?
  rw [sessions_put]
  split <;> rfl

theorem channel?_put (s : Session) (token' channel' : String) :
    (r.put token s).channel? token' channel' =
      if token = token' then s.channels[channel']? else r.channel? token' channel' := by
  unfold channel?
  rw [sessions_put]
  split <;> rfl

theorem channels_of_session {s : Session} (h : r.session token = .ok s) (channel : String) :
    s.channels[channel]? = r.channel? token channel := by
  unfold session at h
  unfold channel?
  split at h
  · next s' hs => cases h; rw [hs]; rfl
  · next hs =>
    split at h
    · cases h
    · cases h; rw [hs]; simp

/-- A token has a session, or there is room for one. -/
def Admits (token : String) (r : Registry) : Prop :=
  r.lastAccess? token ≠ none ∨ r.sessionCount < r.limits.maxSessions

theorem session_of_admits (h : r.Admits token) :
    r.session token = .ok ((r.sessions[token]?).getD { lastAccess := r.now }) := by
  unfold session
  cases hs : r.sessions[token]? with
  | some s => rfl
  | none =>
    rcases h with hlive | hroom
    · exact absurd (by simp [lastAccess?, hs]) hlive
    · exact if_neg (Nat.not_le_of_lt hroom)

theorem session_of_not_admits (h : ¬ r.Admits token) :
    r.session token = .error (.busy .sessions r.limits.maxSessions) := by
  rw [Admits, not_or, Decidable.not_not] at h
  obtain ⟨hnone, hfull⟩ := h
  have hs : r.sessions[token]? = none := by simpa [lastAccess?] using hnone
  unfold session
  rw [hs]
  exact if_pos (Nat.le_of_not_lt hfull)

/-- Only a token without a session is refused one. -/
theorem sessions_of_session_error {e : Refusal} (h : r.session token = .error e) :
    r.sessions[token]? = none := by
  unfold session at h
  split at h
  · cases h
  · assumption

/-- What use of a token does to the sessions: one is put in its place, used just now, unless the
token has none and gets none. -/
def UsedBy (token : String) (r r' : Registry) : Prop :=
  (∃ s, r' = r.put token s) ∨ r' = r ∧ r.lastAccess? token = none

theorem UsedBy.now_eq {r' : Registry} (h : UsedBy token r r') : r'.now = r.now := by
  rcases h with ⟨s, rfl⟩ | ⟨rfl, -⟩ <;> rfl

theorem UsedBy.limits_eq {r' : Registry} (h : UsedBy token r r') : r'.limits = r.limits := by
  rcases h with ⟨s, rfl⟩ | ⟨rfl, -⟩ <;> rfl

theorem UsedBy.lastAccess?_self {r' : Registry} (h : UsedBy token r r') :
    r'.lastAccess? token = some r.now ∨
      r.lastAccess? token = none ∧ r'.lastAccess? token = none := by
  rcases h with ⟨s, rfl⟩ | ⟨rfl, hnone⟩
  · exact .inl (by rw [lastAccess?_put, if_pos rfl])
  · exact .inr ⟨hnone, hnone⟩

theorem UsedBy.lastAccess?_of_ne {r' : Registry} (h : UsedBy token r r') {token' : String}
    (hne : token ≠ token') : r'.lastAccess? token' = r.lastAccess? token' := by
  rcases h with ⟨s, rfl⟩ | ⟨rfl, -⟩
  · rw [lastAccess?_put, if_neg hne]
  · rfl

theorem UsedBy.sessions_of_ne {r' : Registry} (h : UsedBy token r r') {token' : String}
    (hne : token ≠ token') : r'.sessions[token']? = r.sessions[token']? := by
  rcases h with ⟨s, rfl⟩ | ⟨rfl, -⟩
  · rw [sessions_put, if_neg hne]
  · rfl

theorem usedBy_ensureSession : UsedBy token r (r.ensureSession token).2 := by
  unfold ensureSession
  split
  · next s _ => exact .inl ⟨s, rfl⟩
  · next e h => exact .inr ⟨rfl, by simp [lastAccess?, sessions_of_session_error h]⟩

theorem channel?_ensureSession (token' channel' : String) :
    (r.ensureSession token).2.channel? token' channel' = r.channel? token' channel' := by
  unfold ensureSession
  split
  · next s hs =>
    rw [channel?_put]
    split
    · next ht => subst ht; rw [channels_of_session hs]
    · rfl
  · rfl

/-! ### Channels that are opened if need be -/

section onChannel

variable {α : Type} {f : Channel → Except Refusal α × Channel}

theorem onChannel_of_error {e : Refusal} (h : r.session token = .error e) :
    r.onChannel token channel f = (.error e, r) := by
  simp only [onChannel, h]

theorem onChannel_of_ok {s : Session} (h : r.session token = .ok s) :
    r.onChannel token channel f =
      ((f ((r.channel? token channel).getD {})).1,
        r.put token
          { s with channels :=
            s.channels.insert channel (f ((r.channel? token channel).getD {})).2 }) := by
  simp only [onChannel, h, channels_of_session h]

theorem usedBy_onChannel : UsedBy token r (r.onChannel token channel f).2 := by
  cases h : r.session token with
  | error e =>
    exact .inr ⟨by rw [onChannel_of_error h], by simp [lastAccess?, sessions_of_session_error h]⟩
  | ok s => exact .inl ⟨_, by rw [onChannel_of_ok h]⟩

theorem channel?_onChannel {s : Session} (h : r.session token = .ok s) (token' channel' : String) :
    (r.onChannel token channel f).2.channel? token' channel' =
      if token = token' ∧ channel = channel' then
        some (f ((r.channel? token channel).getD {})).2
      else r.channel? token' channel' := by
  rw [onChannel_of_ok h, channel?_put]
  by_cases ht : token = token'
  · subst ht
    simp only [if_true, true_and, Table.getElem?_insert_eq, channels_of_session h]
  · simp [ht]

theorem channel?_onChannel_of_ne {token' channel' : String}
    (hne : ¬ (token = token' ∧ channel = channel')) :
    (r.onChannel token channel f).2.channel? token' channel' = r.channel? token' channel' := by
  cases h : r.session token with
  | error e => rw [onChannel_of_error h]
  | ok s => rw [channel?_onChannel h, if_neg hne]

theorem waiting?_onChannel_of_acks (hf : ∀ c, (f c).2.acks = c.acks) (token' channel' : String)
    (id : Nat) :
    (r.onChannel token channel f).2.waiting? token' channel' id =
      r.waiting? token' channel' id := by
  cases h : r.session token with
  | error e => rw [onChannel_of_error h]
  | ok s =>
    unfold waiting?
    rw [channel?_onChannel h]
    split
    · next heq =>
      obtain ⟨rfl, rfl⟩ := heq
      cases r.channel? token channel <;> simp [hf]
    · rfl

end onChannel

/-! ### Channels that exist already -/

section onExisting

variable {α : Type} {absent : α} {f : Channel → α × Channel}

theorem onExisting_answer :
    (r.onExisting token channel absent f).1 =
      ((r.channel? token channel).map fun c => (f c).1).getD absent := by
  unfold onExisting channel?
  split
  · next h => simp [h]
  · next s h =>
    simp only [h, Option.bind_some]
    split
    · next h' => simp [h']
    · next c h' => simp [h']

theorem usedBy_onExisting : UsedBy token r (r.onExisting token channel absent f).2 := by
  unfold onExisting
  split
  · next h => exact .inr ⟨rfl, by simp [lastAccess?, h]⟩
  · split <;> exact .inl ⟨_, rfl⟩

theorem channel?_onExisting (token' channel' : String) :
    (r.onExisting token channel absent f).2.channel? token' channel' =
      if token = token' ∧ channel = channel' then
        (r.channel? token' channel').map fun c => (f c).2
      else r.channel? token' channel' := by
  unfold onExisting
  split
  · next h =>
    split
    · next heq => obtain ⟨rfl, rfl⟩ := heq; simp [channel?, h]
    · rfl
  · next s h =>
    have hc : ∀ c, r.channel? token c = s.channels[c]? := by simp [channel?, h]
    split
    · next h' =>
      rw [channel?_put]
      by_cases ht : token = token'
      · subst ht
        by_cases hch : channel = channel'
        · subst hch; simp [hc, h']
        · simp [hch, hc]
      · simp [ht]
    · next c h' =>
      rw [channel?_put]
      by_cases ht : token = token'
      · subst ht
        simp only [if_true, true_and, Table.getElem?_insert_eq, hc]
        split
        · next hch => subst hch; rw [h']; rfl
        · rfl
      · simp [ht]

theorem channel?_onExisting_of_ne {token' channel' : String}
    (hne : ¬ (token = token' ∧ channel = channel')) :
    (r.onExisting token channel absent f).2.channel? token' channel' =
      r.channel? token' channel' := by
  rw [channel?_onExisting, if_neg hne]

/-- What an operation makes of the ids of a channel it makes of each of them. -/
theorem waiting?_onExisting {g : Option Ack → Option Ack} {id : Nat} (hnone : g none = none)
    (hf : ∀ c, (f c).2.acks[id]? = g c.acks[id]?) (token' channel' : String) :
    (r.onExisting token channel absent f).2.waiting? token' channel' id =
      if token = token' ∧ channel = channel' then g (r.waiting? token' channel' id)
      else r.waiting? token' channel' id := by
  unfold waiting?
  rw [channel?_onExisting]
  split
  · cases r.channel? token' channel' <;> simp [hnone, hf]
  · rfl

end onExisting

/-! ### The sweep -/

/-- Whether a session was used recently enough to survive a sweep. -/
def Recent (r : Registry) (used : Nat) : Prop := r.now - used ≤ r.limits.maxSessionAge

instance (r : Registry) (used : Nat) : Decidable (r.Recent used) :=
  inferInstanceAs (Decidable (_ ≤ _))

theorem sessions_sweep (r : Registry) (token : String) :
    r.sweep.2.sessions[token]? =
      (r.sessions[token]?.filter fun s => decide (r.Recent s.lastAccess)).map fun s =>
        s.expire r.now r.limits.maxAckAge := by
  simp only [sweep, expireAcks, dropIdle, Std.ExtTreeMap.getElem?_map,
    Std.ExtTreeMap.getElem?_filter']
  rfl

theorem lastAccess?_sweep (r : Registry) (token : String) :
    r.sweep.2.lastAccess? token =
      (r.lastAccess? token).filter fun used => decide (r.Recent used) := by
  unfold lastAccess?
  rw [sessions_sweep]
  cases r.sessions[token]? with
  | none => rfl
  | some s => by_cases h : r.Recent s.lastAccess <;> simp [Option.filter_some, h, Session.expire]

theorem channel?_sweep_of_recent {used : Nat} (h : r.lastAccess? token = some used)
    (hr : r.Recent used) (channel : String) :
    r.sweep.2.channel? token channel =
      (r.channel? token channel).map (Channel.expire r.now r.limits.maxAckAge) := by
  unfold lastAccess? at h
  unfold channel?
  rw [sessions_sweep]
  obtain ⟨s, hs, rfl⟩ := Option.map_eq_some_iff.1 h
  simp only [hs, Option.filter_some, hr, decide_true, if_true, Option.map_some, Option.bind_some,
    Session.expire]
  exact Std.ExtTreeMap.getElem?_map

theorem channel?_sweep_of_idle (h : ∀ used, r.lastAccess? token = some used → ¬ r.Recent used)
    (channel : String) : r.sweep.2.channel? token channel = none := by
  unfold lastAccess? at h
  unfold channel?
  rw [sessions_sweep]
  cases hs : r.sessions[token]? with
  | none => rfl
  | some s =>
    rw [hs] at h
    simp [h s.lastAccess rfl]

theorem lastAccess?_of_channel? {c : Channel} (h : r.channel? token channel = some c) :
    ∃ used, r.lastAccess? token = some used := by
  unfold channel? at h
  obtain ⟨s, hs, -⟩ := Option.bind_eq_some_iff.1 h
  exact ⟨s.lastAccess, by simp [lastAccess?, hs]⟩

theorem lastAccess?_of_waiting? {id : Nat} {a : Ack} (h : r.waiting? token channel id = some a) :
    ∃ used, r.lastAccess? token = some used := by
  obtain ⟨c, hc, -⟩ := Option.bind_eq_some_iff.1 h
  exact lastAccess?_of_channel? hc

theorem waiting?_sweep_of_recent {used : Nat} (h : r.lastAccess? token = some used)
    (hr : r.Recent used) (channel : String) (id : Nat) :
    r.sweep.2.waiting? token channel id =
      (r.waiting? token channel id).filter fun a =>
        decide (r.now - a.registeredAt ≤ r.limits.maxAckAge) := by
  unfold waiting?
  rw [channel?_sweep_of_recent h hr]
  cases r.channel? token channel with
  | none => rfl
  | some c => simp [Channel.acks_expire]

theorem waiting?_sweep_of_idle (h : ∀ used, r.lastAccess? token = some used → ¬ r.Recent used)
    (channel : String) (id : Nat) : r.sweep.2.waiting? token channel id = none := by
  unfold waiting?
  rw [channel?_sweep_of_idle h]
  rfl

/-! ### What is read -/

theorem mem_listAcks {id : Nat} {a : Ack} :
    (id, a) ∈ (r.listAcks token channel).1 ↔ r.waiting? token channel id = some a := by
  unfold listAcks waiting?
  rw [onExisting_answer]
  cases r.channel? token channel with
  | none => simp
  | some c => simp [Std.ExtTreeMap.mem_toList_iff_getElem?_eq_some]

theorem isAcknowledged_answer (id : Nat) :
    (r.isAcknowledged token channel id).1 =
      ((r.waiting? token channel id).map Ack.acknowledged).getD false := by
  unfold isAcknowledged waiting?
  rw [onExisting_answer]
  cases r.channel? token channel <;> rfl

end Registry

end EventRelay.Ack
