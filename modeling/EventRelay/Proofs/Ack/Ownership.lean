import EventRelay.Proofs.Ack.Acked
import EventRelay.Proofs.Ack.Counter

/-!
# Whose registration an id is

Several clients share a registry. Each of them registers only an id that it was just given, and
marks or deletes only ids that it registered (`Orderly`). One would like that an id is then
reported as acknowledged only after the client that registered it has marked it, and that no client
deletes what another one registered.

This holds as long as no client uses a stale id, one that it was given before the session was last
evicted (`Stale`): `marked_by_owner_or_stale`. An evicted session takes its counters with it, so the
numbering starts anew, and a client that was slow to mark its id marks that of somebody else
(`affirmed_by_stale_mark`).
-/

namespace EventRelay.Ack

variable {κ : Type}

/-- What happens when clients do operations one after another: each moment with its client. -/
def transcript (calls : List (κ × Operation)) (r : Registry) : List (κ × Moment) :=
  (calls.map Prod.fst).zip (Operation.history (calls.map Prod.snd) r)

/-- The last thing that a client did before a place was to be given the id. -/
def JustIssued (token channel : String) (id : Nat) (client : κ) (tr : List (κ × Moment))
    (i : Nat) : Prop :=
  ∃ j m, j < i ∧ tr[j]? = some (client, m) ∧ m.Issues token channel id ∧
    ∀ n m', j < n → n < i → tr[n]? = some (client, m') → m'.operation.token? = none

/-- Clients register only ids that they were just given, and mark and delete only ids that they
have registered. -/
structure Orderly (tr : List (κ × Moment)) : Prop where
  registers_issued : ∀ {i : Nat} {client : κ} {m : Moment} {token channel : String} {id : Nat},
    tr[i]? = some (client, m) → m.operation = .registerAck token channel id →
      JustIssued token channel id client tr i
  uses_registered : ∀ {i : Nat} {client : κ} {m : Moment} {token channel : String} {id : Nat},
    tr[i]? = some (client, m) →
      m.operation = .markAcknowledged token channel id ∨ m.operation = .deleteAck token channel id →
      ∃ (j : Nat) (m' : Moment), j < i ∧ tr[j]? = some (client, m') ∧
        m'.operation = .registerAck token channel id

/-- At place `j` a client was given the id for the last time before place `i`. -/
structure LastIssue (token channel : String) (id : Nat) (client : κ) (tr : List (κ × Moment))
    (i j : Nat) : Prop where
  before : j < i
  here : ∃ m, tr[j]? = some (client, m) ∧ m.Issues token channel id
  last : ∀ n m, j < n → n < i → tr[n]? = some (client, m) → ¬ m.Issues token channel id

/-- The session was evicted since the client was last given the id. -/
def Stale (limits : Limits) (token channel : String) (id : Nat) (client : κ)
    (tr : List (κ × Moment)) (i : Nat) : Prop :=
  ∃ j, LastIssue token channel id client tr i j ∧
    EvictedBetween limits token (tr.map Prod.snd) j i

/-- At place `i` the id waits, and it was the client that registered it, at place `j`. -/
def OwnedSince (limits : Limits) (token channel : String) (id : Nat) (client : κ)
    (tr : List (κ × Moment)) (i j : Nat) : Prop :=
  ∃ m, tr[j]? = some (client, m) ∧ Held limits token channel id ((tr.map Prod.snd).take i) j m

/-- The id is said to be acknowledged. -/
def Moment.Affirms (token channel : String) (id : Nat) (m : Moment) : Prop :=
  m.operation = .isAcknowledged token channel id ∧ m.answer = .flag true ∨
    ∃ query statuses, m.operation = .report token channel query ∧ m.answer = .statuses statuses ∧
      statuses.get? id = some true

/-- The id is deleted, and was there to be deleted. -/
def Moment.Deletes (token channel : String) (id : Nat) (m : Moment) : Prop :=
  m.operation = .deleteAck token channel id ∧ m.answer = .flag true

namespace Operation

variable {op : Operation} {r : Registry} {token channel : String} {id : Nat}

theorem acked_of_affirms (h : (op.moment r).Affirms token channel id) :
    r.acked token channel id = true := by
  rcases h with ⟨hop, hanswer⟩ | ⟨query, statuses, hop, hanswer, hid⟩
  · rw [moment_operation] at hop
    subst hop
    rw [← Registry.isAcknowledged_eq_acked]
    exact Answer.flag.inj hanswer
  · rw [moment_operation] at hop
    subst hop
    exact (Registry.acked_of_report_true (answer_eq_statuses_iff.1 hanswer) hid).1

theorem waiting?_of_deletes (h : (op.moment r).Deletes token channel id) :
    ∃ a, r.waiting? token channel id = some a := by
  obtain ⟨hop, hanswer⟩ := h
  rw [moment_operation] at hop
  subst hop
  have hdeleted : (r.deleteAck token channel id).1 = true := Answer.flag.inj hanswer
  rw [Registry.deleteAck_answer] at hdeleted
  exact Option.isSome_iff_exists.1 hdeleted

end Operation

/-! ## Transcripts -/

theorem length_history (ops : List Operation) (r : Registry) :
    (Operation.history ops r).length = ops.length := by
  rw [← List.length_map (f := Moment.operation), (Operation.history_eq_run ops r).1]

theorem map_snd_transcript (calls : List (κ × Operation)) (r : Registry) :
    (transcript calls r).map Prod.snd = Operation.history (calls.map Prod.snd) r := by
  refine List.map_snd_zip (Nat.le_of_eq ?_)
  rw [length_history, List.length_map, List.length_map]

theorem getElem?_map_snd {tr : List (κ × Moment)} {i : Nat} {client : κ} {m : Moment}
    (h : tr[i]? = some (client, m)) : (tr.map Prod.snd)[i]? = some m := by
  rw [List.getElem?_map, h]
  rfl

theorem getElem?_transcript (calls : List (κ × Operation)) (r : Registry) (i : Nat) :
    (transcript calls r)[i]? = calls[i]?.map fun call =>
      (call.1, call.2.moment (Operation.stateAt (calls.map Prod.snd) r i)) := by
  rw [transcript, List.zip, List.getElem?_zipWith, Operation.getElem?_history, List.getElem?_map,
    List.getElem?_map]
  cases calls[i]? <;> rfl

theorem exists_of_getElem?_transcript {calls : List (κ × Operation)} {r : Registry} {i : Nat}
    {client : κ} {m : Moment} (h : (transcript calls r)[i]? = some (client, m)) :
    ∃ op, calls[i]? = some (client, op) ∧
      m = op.moment (Operation.stateAt (calls.map Prod.snd) r i) := by
  rw [getElem?_transcript, Option.map_eq_some_iff] at h
  obtain ⟨⟨client', op⟩, hcall, heq⟩ := h
  cases heq
  exact ⟨op, hcall, rfl⟩

/-- What holds somewhere before a place holds somewhere for the last time before it. -/
theorem exists_last {P : Nat → Prop} {n i : Nat} (hi : i < n) (h : P i) :
    ∃ j, j < n ∧ P j ∧ ∀ k, j < k → k < n → ¬ P k := by
  induction n with
  | zero => omega
  | succ n ih =>
    by_cases hn : P n
    · exact ⟨n, Nat.lt_succ_self n, hn, fun k hk hk' => by omega⟩
    · have hne : i ≠ n := by
        rintro rfl
        exact hn h
      obtain ⟨j, hj, hPj, hlast⟩ := ih (by omega)
      refine ⟨j, Nat.lt_succ_of_lt hj, hPj, ?_⟩
      intro k hjk hk
      rcases Nat.lt_succ_iff_lt_or_eq.1 hk with hlt | rfl
      · exact hlast k hjk hlt
      · exact hn

section Clients

variable {limits : Limits} {now : Nat} {calls : List (κ × Operation)} {token channel : String}
  {id i j n : Nat} {client owner : κ} {m : Moment}

theorem JustIssued.lastIssue {tr : List (κ × Moment)}
    (h : JustIssued token channel id client tr i) (hin : i ≤ n) :
    ∃ j, LastIssue token channel id client tr n j := by
  obtain ⟨j, m, hj, hm, hissue, -⟩ := h
  obtain ⟨k, hk, hhere, hlast⟩ :=
    exists_last (P := fun k => ∃ m, tr[k]? = some (client, m) ∧ m.Issues token channel id)
      (Nat.lt_of_lt_of_le hj hin) ⟨m, hm, hissue⟩
  exact ⟨k, hk, hhere, fun k' m' hk' hlt hm' hissue' => hlast k' hk' hlt ⟨m', hm', hissue'⟩⟩

/-- While a registration lasts the session is not evicted. -/
theorem Held.not_evicted {h : List Moment} (hh : Held limits token channel id (h.take i) j m) :
    ¬ ∃ k m', j ≤ k ∧ k < i ∧ h[k]? = some m' ∧ m'.Evicts limits token (h.take k) := by
  rintro ⟨k, m', hjk, hki, hm', hevicts⟩
  have htake : (h.take i)[k]? = some m' := by rw [List.getElem?_take_of_lt hki, hm']
  rcases Nat.lt_or_eq_of_le hjk with hlt | rfl
  · refine hh.lasts k m' hlt htake (.inr (.inr (.inr ?_)))
    rwa [List.take_take, Nat.min_eq_left (Nat.le_of_lt hki)]
  · -- what registers is no sweep
    obtain rfl : m' = m := Option.some.inj (htake.symm.trans hh.here)
    have hop := hh.registers.1
    rw [hevicts.1] at hop
    cases hop

/-- Of two clients that hold one id, one holds it since before the session was last evicted. -/
theorem stale_of_two_holders
    (hown : OwnedSince limits token channel id owner (transcript calls { limits, now }) i j)
    (hjn : j ≤ n) (hni : n ≤ i) {a b : Nat}
    (ha : LastIssue token channel id owner (transcript calls { limits, now }) j a)
    (hb : LastIssue token channel id client (transcript calls { limits, now }) n b)
    (hne : client ≠ owner) :
    Stale limits token channel id client (transcript calls { limits, now }) n ∨
      Stale limits token channel id owner (transcript calls { limits, now }) j := by
  obtain ⟨reg, -, hheld⟩ := hown
  obtain ⟨ma, hma, hissueA⟩ := ha.here
  obtain ⟨mb, hmb, hissueB⟩ := hb.here
  have haj := ha.before
  have hbn := hb.before
  have hplaceA := getElem?_map_snd hma
  have hplaceB := getElem?_map_snd hmb
  rw [map_snd_transcript] at hplaceA hplaceB
  rcases Nat.lt_trichotomy b a with hba | rfl | hab
  · -- the owner was given the id later, after an eviction
    obtain ⟨k, m, hbk, hka, hk⟩ := evicted_between_issues hplaceB hissueB hplaceA hissueA hba
    refine .inl ⟨b, hb, k, m, hbk, by omega, ?_⟩
    rwa [map_snd_transcript]
  · rw [hma] at hmb
    cases hmb
    exact absurd rfl hne
  · -- the client was given the id later, after an eviction that came before the registration
    obtain ⟨k, m, hak, hkb, hk⟩ := evicted_between_issues hplaceA hissueA hplaceB hissueB hab
    refine .inr ⟨a, ha, k, m, hak, ?_, ?_⟩
    · apply Decidable.by_contra
      intro hjk
      rw [map_snd_transcript] at hheld
      exact hheld.not_evicted ⟨k, m, by omega, by omega, hk⟩
    · rwa [map_snd_transcript]

/-- An id that waits was registered by some client. -/
theorem exists_owner {a : Ack}
    (ha : (Operation.stateAt (calls.map Prod.snd) { limits, now } i).waiting? token channel id =
      some a) :
    ∃ j owner, j < i ∧
      OwnedSince limits token channel id owner (transcript calls { limits, now }) i j ∧
      (a.acknowledged = true → MarkedAfter token channel id
        (((transcript calls { limits, now }).map Prod.snd).take i) j) := by
  have agrees := Agrees.stateAt limits now (calls.map Prod.snd) token channel id i
  obtain ⟨j, m, hheld, hd⟩ := agrees.held_of_entry ha
  have hlimits : (Operation.stateAt (calls.map Prod.snd) { limits, now } i).limits = limits :=
    Operation.limits_runAll _ _
  rw [hlimits, ← map_snd_transcript] at hheld
  rw [← map_snd_transcript] at hd
  have hj := lt_length_of_getElem? hheld.here
  rw [List.length_take] at hj
  have hhere := hheld.here
  rw [List.getElem?_take_of_lt (by omega), List.getElem?_map, Option.map_eq_some_iff] at hhere
  obtain ⟨⟨owner, m'⟩, hm, rfl⟩ := hhere
  exact ⟨j, owner, by omega, ⟨m', hm, hheld⟩, hd.2.1⟩

/-- Whoever marks or deletes an id that waits is its owner, unless one of the two is stale. -/
theorem owner_or_stale (orderly : Orderly (transcript calls { limits, now }))
    (hown : OwnedSince limits token channel id owner (transcript calls { limits, now }) i j)
    (hjn : j ≤ n) (hni : n ≤ i) (hn : (transcript calls { limits, now })[n]? = some (client, m))
    (huse : m.operation = .markAcknowledged token channel id ∨
      m.operation = .deleteAck token channel id) :
    client = owner ∨ Stale limits token channel id client (transcript calls { limits, now }) n ∨
      Stale limits token channel id owner (transcript calls { limits, now }) j := by
  by_cases hne : client = owner
  · exact .inl hne
  have ⟨reg, hreg, hheld⟩ := hown
  obtain ⟨a, ha⟩ := (orderly.registers_issued hreg hheld.registers.1).lastIssue (Nat.le_refl j)
  obtain ⟨k, m', hk, hm', hop⟩ := orderly.uses_registered hn huse
  obtain ⟨b, hb⟩ := (orderly.registers_issued hm' hop).lastIssue (Nat.le_of_lt hk)
  exact .inr (stale_of_two_holders hown hjn hni ha hb hne)

end Clients

/-- Among clients that use only what they registered, an id that is reported as acknowledged was
marked since its registration, and one that is deleted was there; the client that marked or deleted
it is the one that registered it, unless one of the two held an id from before an eviction. -/
theorem marked_by_owner_or_stale {limits : Limits} {now : Nat} {calls : List (κ × Operation)}
    (orderly : Orderly (transcript calls { limits, now })) (token channel : String) (id : Nat) :
    let tr := transcript calls { limits, now }
    (∀ (i : Nat) (client : κ) (m : Moment), tr[i]? = some (client, m) →
      m.Affirms token channel id →
      ∃ j owner, j < i ∧ OwnedSince limits token channel id owner tr i j ∧
        ∃ n marker mark, j < n ∧ n < i ∧ tr[n]? = some (marker, mark) ∧
          mark.Marks token channel id ∧
          (marker = owner ∨ Stale limits token channel id marker tr n ∨
            Stale limits token channel id owner tr j)) ∧
    (∀ (i : Nat) (client : κ) (m : Moment), tr[i]? = some (client, m) →
      m.Deletes token channel id →
      ∃ j owner, j < i ∧ OwnedSince limits token channel id owner tr i j ∧
        (client = owner ∨ Stale limits token channel id client tr i ∨
          Stale limits token channel id owner tr j)) := by
  intro tr
  constructor
  · intro i client m hi haffirms
    obtain ⟨op, -, rfl⟩ := exists_of_getElem?_transcript hi
    obtain ⟨a, ha, hack⟩ := Registry.acked_iff.1 (Operation.acked_of_affirms haffirms)
    obtain ⟨j, owner, hji, hown, hmarked⟩ := exists_owner ha
    obtain ⟨n, mark, hjn, hn, hmark⟩ := hmarked hack
    have hni := lt_length_of_getElem? hn
    rw [List.length_take] at hni
    rw [List.getElem?_take_of_lt (by omega), List.getElem?_map, Option.map_eq_some_iff] at hn
    obtain ⟨⟨marker, mark'⟩, hn, rfl⟩ := hn
    refine ⟨j, owner, hji, hown, n, marker, mark', hjn, by omega, hn, hmark, ?_⟩
    exact owner_or_stale orderly hown (Nat.le_of_lt hjn) (by omega) hn (.inl hmark)
  · intro i client m hi hdeletes
    obtain ⟨op, -, rfl⟩ := exists_of_getElem?_transcript hi
    obtain ⟨a, ha⟩ := Operation.waiting?_of_deletes hdeletes
    obtain ⟨j, owner, hji, hown, -⟩ := exists_owner ha
    refine ⟨j, owner, hji, hown, ?_⟩
    exact owner_or_stale orderly hown (Nat.le_of_lt hji) (Nat.le_refl i) hi (.inr hdeletes.1)

/-! ## A slow client -/

/-- Two clients on one channel. The first is slow to mark its id: by then its session has been
evicted and the second client has been given the same id. -/
def slowMark : List (String × Operation) :=
  [("slow", .nextAckId "t" "c"), ("slow", .registerAck "t" "c" 0), ("clock", .advance 101),
    ("sweeper", .sweep), ("quick", .nextAckId "t" "c"), ("quick", .registerAck "t" "c" 0),
    ("slow", .markAcknowledged "t" "c" 0), ("quick", .isAcknowledged "t" "c" 0)]

/-- Limits under which a session does not outlive a tenth of a second. -/
def briefLimits : Limits := { maxSessionAge := 100 }

/-- The registry that the call at a place of this run meets. -/
def slowMarkAt (i : Nat) : Registry :=
  Operation.stateAt (slowMark.map Prod.snd) { limits := briefLimits } i

theorem slowMark_issues :
    ((Operation.nextAckId "t" "c").moment (slowMarkAt 0)).Issues "t" "c" 0 ∧
      ((Operation.nextAckId "t" "c").moment (slowMarkAt 4)).Issues "t" "c" 0 := by
  have hfirst : ((slowMarkAt 0).nextAckId "t" "c").1 = .ok 0 := by decide +kernel
  have hsecond : ((slowMarkAt 4).nextAckId "t" "c").1 = .ok 0 := by decide +kernel
  exact ⟨⟨rfl, Operation.answer_eq_id_iff.2 hfirst⟩, ⟨rfl, Operation.answer_eq_id_iff.2 hsecond⟩⟩

theorem slowMark_orderly : Orderly (transcript slowMark { limits := briefLimits }) where
  registers_issued {i client m token channel id} h hop := by
    obtain ⟨op, hi, rfl⟩ := exists_of_getElem?_transcript h
    rw [Operation.moment_operation] at hop
    subst hop
    have hplace : i = 1 ∨ i = 5 := by
      rcases i with _ | _ | _ | _ | _ | _ | _ | _ | i <;> cases hi <;> simp
    rcases hplace with rfl | rfl <;> cases hi
    · exact ⟨0, _, by omega, getElem?_transcript .., slowMark_issues.1, fun n m _ _ => by omega⟩
    · exact ⟨4, _, by omega, getElem?_transcript .., slowMark_issues.2, fun n m _ _ => by omega⟩
  uses_registered {i client m token channel id} h huse := by
    obtain ⟨op, hi, rfl⟩ := exists_of_getElem?_transcript h
    rw [Operation.moment_operation] at huse
    have hplace : i = 6 := by
      rcases huse with rfl | rfl
      · rcases i with _ | _ | _ | _ | _ | _ | _ | _ | i <;> cases hi
        rfl
      · rcases i with _ | _ | _ | _ | _ | _ | _ | _ | i <;> cases hi
    subst hplace
    rcases huse with rfl | rfl <;> cases hi
    exact ⟨1, _, by omega, getElem?_transcript .., rfl⟩

theorem slowMark_affirms :
    ((Operation.isAcknowledged "t" "c" 0).moment (slowMarkAt 7)).Affirms "t" "c" 0 := by
  have hflag : ((slowMarkAt 7).isAcknowledged "t" "c" 0).1 = true := by decide +kernel
  exact .inl ⟨rfl, congrArg Answer.flag hflag⟩

theorem slowMark_owned :
    OwnedSince briefLimits "t" "c" 0 "quick"
      (transcript slowMark { limits := briefLimits }) 7 5 := by
  have hdone : ((slowMarkAt 5).registerAck "t" "c" 0).1 = .ok () := by decide +kernel
  refine ⟨_, getElem?_transcript .., ?_⟩
  rw [map_snd_transcript]
  refine ⟨?_, ⟨rfl, Operation.answer_eq_done_iff.2 ⟨(), hdone⟩⟩, ?_⟩
  · rw [List.getElem?_take_of_lt (by omega), Operation.getElem?_history]
    rfl
  · intro n m hn hm hends
    have hlt := lt_length_of_getElem? hm
    rw [List.length_take] at hlt
    obtain rfl : n = 6 := by omega
    rw [List.getElem?_take_of_lt (by omega), Operation.getElem?_history] at hm
    cases hm
    -- a mark ends no registration
    rcases hends with ⟨⟨⟩, -⟩ | (⟨⟨⟩⟩ | ⟨statuses, query, ids, ⟨⟩, -⟩) | ⟨⟨⟩, -⟩ | ⟨⟨⟩, -⟩

theorem marked_by_owner_or_stale_slowMark :
    ∃ j owner, j < 7 ∧
      OwnedSince briefLimits "t" "c" 0 owner (transcript slowMark { limits := briefLimits }) 7 j ∧
      ∃ n marker mark, j < n ∧ n < 7 ∧
        (transcript slowMark { limits := briefLimits })[n]? = some (marker, mark) ∧
        mark.Marks "t" "c" 0 ∧
        (marker = owner ∨
          Stale briefLimits "t" "c" 0 marker (transcript slowMark { limits := briefLimits }) n ∨
          Stale briefLimits "t" "c" 0 owner (transcript slowMark { limits := briefLimits }) j) :=
  (marked_by_owner_or_stale slowMark_orderly "t" "c" 0).1 7 "quick" _ (getElem?_transcript ..)
    slowMark_affirms

/-- The id of the second client is acknowledged though that client has marked nothing. -/
theorem affirmed_by_stale_mark :
    let tr := transcript slowMark { limits := briefLimits }
    Orderly tr ∧ (∃ m, tr[7]? = some ("quick", m) ∧ m.Affirms "t" "c" 0) ∧
      OwnedSince briefLimits "t" "c" 0 "quick" tr 7 5 ∧
      ∀ (n : Nat) (m : Moment), tr[n]? = some ("quick", m) → ¬ m.Marks "t" "c" 0 := by
  intro tr
  refine ⟨slowMark_orderly, ⟨_, getElem?_transcript .., slowMark_affirms⟩, slowMark_owned, ?_⟩
  intro n m hn hmark
  obtain ⟨op, hi, rfl⟩ := exists_of_getElem?_transcript hn
  rw [Moment.Marks, Operation.moment_operation] at hmark
  subst hmark
  rcases n with _ | _ | _ | _ | _ | _ | _ | _ | n <;> simp [slowMark] at hi

end EventRelay.Ack
