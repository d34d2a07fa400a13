import EventRelay.Proofs.Ack.Counter
import Mathlib.Algebra.BigOperators.Fin

/-!
# The numbering of a channel

A channel numbers the ids that it gives out 0, 1, 2, … as long as its session lives. The life of a
session begins with the operation that opens it (`Opens`) and is over when the next one of its token
is opened, so a stretch of a run belongs to one life if nothing in it but its first operation opens
a session (`NeverOpens`). `issued_since_opening` says that the ids issued in a life are consecutive,
whatever else is done in between and by whomever.

Calls of several threads reach the registry in some order, each thread's own calls in theirs
(`InParallel`). Since all of them are alike, the order does not matter.
-/

namespace EventRelay.Ack

/-- The id that is issued on a channel, if one is. -/
def Moment.issued? (token channel : String) (m : Moment) : Option Nat :=
  match m.operation, m.answer with
  | .nextAckId t c, .id id => if t = token ∧ c = channel then some id else none
  | _, _ => none

/-- The ids that are issued on a channel, in order. -/
def issued (token channel : String) (h : List Moment) : List Nat :=
  h.filterMap (Moment.issued? token channel)

namespace Operation

/-- There was no session of the token, and now there is one. -/
def Opens (token : String) (op : Operation) (r : Registry) : Prop :=
  r.lastAccess? token = none ∧ (op.run r).2.lastAccess? token ≠ none

/-- Nothing in a run opens a session of the token. -/
def NeverOpens (token : String) : List Operation → Registry → Prop
  | [], _ => True
  | op :: ops, r => ¬ op.Opens token r ∧ NeverOpens token ops (op.run r).2

instance (token : String) (op : Operation) (r : Registry) : Decidable (op.Opens token r) :=
  inferInstanceAs (Decidable (_ ∧ _))

instance decidableNeverOpens (token : String) :
    (ops : List Operation) → (r : Registry) → Decidable (NeverOpens token ops r)
  | [], _ => inferInstanceAs (Decidable True)
  | op :: ops, r =>
    have := decidableNeverOpens token ops (op.run r).2
    inferInstanceAs (Decidable (_ ∧ _))

/-- Calls of several threads in the order in which they are done, so many of one kind by each. -/
def InParallel (threads count : Nat) (op : Operation) (calls : List (Fin threads × Operation)) :
    Prop :=
  ∀ thread, (calls.filter (·.1 = thread)).map Prod.snd = List.replicate count op

end Operation

variable {token channel : String}

theorem issued?_eq_some_iff {m : Moment} {id : Nat} :
    m.issued? token channel = some id ↔ m.Issues token channel id := by
  obtain ⟨time, op, answer⟩ := m
  unfold Moment.issued? Moment.Issues
  split
  · next t c id' hop hanswer =>
    cases hop
    cases hanswer
    simp only [Option.ite_none_right_eq_some, Option.some.injEq, Operation.nextAckId.injEq,
      Answer.id.injEq]
  · next hne =>
    constructor
    · intro h
      cases h
    · rintro ⟨hop, hanswer⟩
      exact absurd hanswer (hne _ _ _ hop)

theorem issued?_eq_none_iff {m : Moment} :
    m.issued? token channel = none ↔ ∀ id, ¬ m.Issues token channel id := by
  simp only [← issued?_eq_some_iff, Option.eq_none_iff_forall_ne_some, ne_eq]

theorem issued_cons (m : Moment) (h : List Moment) :
    issued token channel (m :: h) =
      (m.issued? token channel).toList ++ issued token channel h := by
  unfold issued
  cases hm : m.issued? token channel with
  | none => rw [List.filterMap_cons_none hm]; rfl
  | some id => rw [List.filterMap_cons_some hm]; rfl

/-! ## One step in a life -/

namespace Operation

open Registry

variable {op : Operation} {r : Registry}

/-- Without a session nothing is issued, unless a session is opened for it. -/
theorem absent_run (channel : String) (h : r.lastAccess? token = none)
    (hopens : ¬ op.Opens token r) :
    (op.run r).2.lastAccess? token = none ∧ (op.moment r).issued? token channel = none := by
  have hafter : (op.run r).2.lastAccess? token = none :=
    Decidable.not_not.1 fun hlive => hopens ⟨h, hlive⟩
  refine ⟨hafter, issued?_eq_none_iff.2 ?_⟩
  intro id hissue
  obtain ⟨⟨used, hused⟩, -⟩ := live_of_issues hissue
  rw [hafter] at hused
  cases hused

/-- While a session lives, an operation issues the number on its counter and moves that on, or
issues nothing and leaves it alone. -/
theorem counter_run_of_live (channel : String) (hafter : (op.run r).2.lastAccess? token ≠ none) :
    (op.moment r).issued? token channel = some (r.counter token channel) ∧
        (op.run r).2.counter token channel = r.counter token channel + 1 ∨
      (op.moment r).issued? token channel = none ∧
        (op.run r).2.counter token channel = r.counter token channel := by
  cases hissue : (op.moment r).issued? token channel with
  | some id =>
    obtain ⟨rfl, hnext⟩ := counter_run_of_issues (issued?_eq_some_iff.1 hissue)
    exact .inl ⟨rfl, hnext⟩
  | none =>
    refine .inr ⟨rfl, ?_⟩
    by_cases hsweep : op = .sweep
    · -- a sweep that leaves the session behind found it recent
      subst hsweep
      rw [run, lastAccess?_sweep] at hafter
      cases hused : r.lastAccess? token with
      | none => exact absurd (by rw [hused]; rfl) hafter
      | some used =>
        have hrecent : r.Recent used := by
          refine Decidable.by_contra fun hidle => hafter ?_
          rw [hused, Option.filter_some, if_neg (by simpa using hidle)]
        exact counter_sweep_of_recent hused hrecent channel
    · exact counter_run_of_other (issued?_eq_none_iff.1 hissue) hsweep

end Operation

/-! ## A life -/

namespace Operation

variable {ops : List Operation} {r : Registry}

theorem issued_of_absent (channel : String) (h : r.lastAccess? token = none)
    (hops : NeverOpens token ops r) :
    issued token channel (history ops r) = [] ∧
      (runAll ops r).2.lastAccess? token = none := by
  induction ops generalizing r with
  | nil => exact ⟨rfl, h⟩
  | cons op ops ih =>
    obtain ⟨hopens, hops⟩ := hops
    obtain ⟨hafter, hissued⟩ := absent_run channel h hopens
    obtain ⟨hrest, hend⟩ := ih hafter hops
    exact ⟨by rw [history, issued_cons, hissued, hrest]; rfl, hend⟩

/-- From any state on, a channel goes on counting until the next session is opened. -/
theorem issued_of_neverOpens (channel : String) (hops : NeverOpens token ops r) :
    ∃ n, issued token channel (history ops r) = List.range' (r.counter token channel) n ∧
      ((runAll ops r).2.lastAccess? token ≠ none →
        (runAll ops r).2.counter token channel = r.counter token channel + n) := by
  induction ops generalizing r with
  | nil => exact ⟨0, rfl, fun _ => rfl⟩
  | cons op ops ih =>
    obtain ⟨-, hops⟩ := hops
    rw [history, issued_cons, runAll]
    by_cases hafter : (op.run r).2.lastAccess? token = none
    · -- the session was evicted, so nothing is issued from here on
      obtain ⟨hrest, hend⟩ := issued_of_absent channel hafter hops
      refine ⟨0, ?_, fun h => absurd hend h⟩
      have hnone : (op.moment r).issued? token channel = none := by
        rw [issued?_eq_none_iff]
        intro id hissue
        obtain ⟨⟨used, hused⟩, -⟩ := live_of_issues hissue
        rw [hafter] at hused
        cases hused
      rw [hnone, hrest]
      rfl
    · obtain ⟨n, hrest, hend⟩ := ih hops
      rcases counter_run_of_live channel hafter with
        ⟨hissue, hcounter⟩ | ⟨hissue, hcounter⟩
      · refine ⟨n + 1, ?_, ?_⟩
        · rw [hissue, hrest, hcounter, List.range'_succ]
          rfl
        · intro h
          rw [hend h, hcounter]
          omega
      · refine ⟨n, ?_, ?_⟩
        · rw [hissue, hrest, hcounter]
          rfl
        · intro h
          rw [hend h, hcounter]

/-- A life begins to count at 0. -/
theorem issued_of_opens {op : Operation} (hopens : op.Opens token r)
    (hops : NeverOpens token ops (op.run r).2) :
    ∃ n, issued token channel (history (op :: ops) r) = List.range n ∧
      ((runAll (op :: ops) r).2.lastAccess? token ≠ none →
        (runAll (op :: ops) r).2.counter token channel = n) := by
  obtain ⟨n, hrest, hend⟩ := issued_of_neverOpens channel hops
  have hzero : r.counter token channel = 0 := Registry.counter_of_absent hopens.1 channel
  have hstep := counter_run_of_live channel hopens.2
  rw [hzero] at hstep
  rw [history, issued_cons, runAll, hrest]
  rcases hstep with ⟨hissue, hcounter⟩ | ⟨hissue, hcounter⟩
  · refine ⟨n + 1, ?_, ?_⟩
    · rw [hissue, hcounter, List.range_eq_range', List.range'_succ]
      rfl
    · intro h
      rw [hend h, hcounter]
      omega
  · refine ⟨n, ?_, ?_⟩
    · rw [hissue, hcounter, List.range_eq_range']
      rfl
    · intro h
      rw [hend h, hcounter]
      omega

/-! ## Threads -/

theorem InParallel.map_snd {threads count : Nat} {op : Operation}
    {calls : List (Fin threads × Operation)} (h : InParallel threads count op calls) :
    calls.map Prod.snd = List.replicate (threads * count) op := by
  rw [List.eq_replicate_iff]
  constructor
  · -- every call is that of one thread
    have hshare : ∀ thread, (calls.map Prod.fst).count thread = count := by
      intro thread
      have hlength := congrArg List.length (h thread)
      rw [List.length_map, List.length_replicate, ← List.countP_eq_length_filter] at hlength
      rw [List.count_eq_countP, List.countP_map, ← hlength]
      exact List.countP_congr fun call _ => by simp
    have hsum := Multiset.sum_count_eq_card (s := Finset.univ)
      (m := (calls.map Prod.fst : Multiset (Fin threads))) fun _ _ => Finset.mem_univ _
    simp only [Multiset.coe_count, hshare, Finset.sum_const, Finset.card_univ, Fintype.card_fin,
      Multiset.coe_card, List.length_map, smul_eq_mul] at hsum
    rw [List.length_map, hsum]
  · intro op' hop'
    obtain ⟨⟨thread, op'⟩, hcall, rfl⟩ := List.mem_map.1 hop'
    have hmem : op' ∈ (calls.filter (·.1 = thread)).map Prod.snd :=
      List.mem_map.2 ⟨_, List.mem_filter.2 ⟨hcall, by simp⟩, rfl⟩
    rw [h thread] at hmem
    exact List.eq_of_mem_replicate hmem

/-- A token that has a session or can get one is given an id. -/
theorem issues_of_admits (channel : String) (h : r.Admits token) :
    ((Operation.nextAckId token channel).moment r).Issues token channel
      (r.counter token channel) := by
  have hok : (r.nextAckId token channel).1 = .ok (r.counter token channel) := by
    unfold Registry.nextAckId Registry.counter
    rw [Registry.onChannel_of_ok (Registry.session_of_admits h)]
    cases r.channel? token channel <;> rfl
  exact ⟨rfl, answer_eq_id_iff.2 hok⟩

theorem issued_replicate (channel : String) (n : Nat) (h : r.Admits token) :
    issued token channel (history (List.replicate n (.nextAckId token channel)) r) =
      List.range' (r.counter token channel) n := by
  induction n generalizing r with
  | zero => rfl
  | succ n ih =>
    have hissue := issues_of_admits channel h
    obtain ⟨⟨used, hused⟩, -⟩ := live_of_issues hissue
    obtain ⟨-, hnext⟩ := counter_run_of_issues hissue
    have hadmits : ((Operation.nextAckId token channel).run r).2.Admits token :=
      .inl (by rw [hused]; exact Option.some_ne_none used)
    rw [List.replicate_succ, history, issued_cons, issued?_eq_some_iff.2 hissue, ih hadmits, hnext,
      List.range'_succ]
    rfl

/-- A token that cannot get a session is refused, and so is all that follows. -/
theorem issued_replicate_of_not_admits (channel : String) (n : Nat) (h : ¬ r.Admits token) :
    issued token channel (history (List.replicate n (.nextAckId token channel)) r) = [] := by
  have hrefused : r.session token = .error (.busy .sessions r.limits.maxSessions) :=
    Registry.session_of_not_admits h
  have hrun : (Operation.nextAckId token channel).run r =
      (.refused (.busy .sessions r.limits.maxSessions), r) := by
    rw [run, Registry.nextAckId, Registry.onChannel_of_error hrefused]
    rfl
  induction n with
  | zero => rfl
  | succ n ih =>
    have hnone : ((Operation.nextAckId token channel).moment r).issued? token channel = none := by
      rw [moment, hrun]
      rfl
    rw [List.replicate_succ, history, issued_cons, hnone, hrun, ih]
    rfl

theorem nextAckIds_eq_issued (n : Nat) :
    (r.nextAckIds token channel n).1 =
      issued token channel (history (List.replicate n (.nextAckId token channel)) r) := by
  induction n generalizing r with
  | zero => rfl
  | succ n ih =>
    rw [List.replicate_succ, history, issued_cons, Registry.nextAckIds]
    cases hx : (r.nextAckId token channel).1 with
    | ok id =>
      have hissue : ((Operation.nextAckId token channel).moment r).Issues token channel id :=
        ⟨rfl, answer_eq_id_iff.2 hx⟩
      rw [issued?_eq_some_iff.2 hissue]
      exact congrArg (id :: ·) ih
    | error e =>
      have hnone : ((Operation.nextAckId token channel).moment r).issued? token channel = none := by
        rw [issued?_eq_none_iff]
        rintro id ⟨-, hanswer⟩
        rw [moment_answer, run] at hanswer
        rw [answer_eq_id_iff.1 hanswer] at hx
        cases hx
      rw [hnone]
      exact ih

end Operation

/-- From an empty registry nothing is issued on a channel before a session of its token is opened.
In each life of a session, from the operation that opens it up to the next one that does, the ids
issued on the channel are 0, 1, 2, … in this order, and the counter is their number as long as the
session has not been evicted. So threads that call side by side are issued the next numbers, one for
each call, if the token has a session or can get one, and otherwise none. Numbers do not end here;
those of a life with fewer than 2^64 calls have 64 bits. -/
theorem issued_since_opening (limits : Limits) (now : Nat) (before : List Operation)
    (token channel : String) :
    let r := (Operation.runAll before { limits, now }).2
    (Operation.NeverOpens token before { limits, now } →
      issued token channel (Operation.history before { limits, now }) = []) ∧
    (∀ (op : Operation) (ops : List Operation), op.Opens token r →
      Operation.NeverOpens token ops (op.run r).2 →
      ∃ n, issued token channel (Operation.history (op :: ops) r) = List.range n ∧
        ((Operation.runAll (op :: ops) r).2.lastAccess? token ≠ none →
          (Operation.runAll (op :: ops) r).2.counter token channel = n)) ∧
    ∀ (threads count : Nat) (calls : List (Fin threads × Operation)),
      Operation.InParallel threads count (.nextAckId token channel) calls →
      (r.nextAckIds token channel (threads * count)).1 =
          issued token channel (Operation.history (calls.map Prod.snd) r) ∧
        (r.Admits token →
          issued token channel (Operation.history (calls.map Prod.snd) r) =
            List.range' (r.counter token channel) (threads * count)) ∧
        (¬ r.Admits token →
          issued token channel (Operation.history (calls.map Prod.snd) r) = []) := by
  intro r
  refine ⟨?_, ?_, ?_⟩
  · intro hbefore
    exact (Operation.issued_of_absent channel (by simp [Registry.lastAccess?]) hbefore).1
  · intro op ops hopens hops
    exact Operation.issued_of_opens hopens hops
  · intro threads count calls hcalls
    rw [hcalls.map_snd]
    refine ⟨Operation.nextAckIds_eq_issued _, ?_, ?_⟩
    · exact Operation.issued_replicate channel _
    · exact Operation.issued_replicate_of_not_admits channel _

/-- An id is issued, and its session is evicted. -/
def evictedOnce : List Operation := [.nextAckId "t" "c", .advance 101, .sweep]

/-- What is done after that. Its first operation opens the session again. -/
def secondLife : List Operation :=
  [.registerAck "t" "c" 7, .nextAckId "t" "c", .sweep, .nextAckId "t" "d", .deleteAck "t" "c" 7,
    .nextAckId "u" "c", .nextAckId "t" "c"]

/-- Two threads that call twice. -/
def twoThreads : List (Fin 2 × Operation) :=
  [(0, .nextAckId "t" "c"), (1, .nextAckId "t" "c"), (1, .nextAckId "t" "c"),
    (0, .nextAckId "t" "c")]

theorem issued_since_opening_secondLife :
    let limits : Limits := { maxSessionAge := 100 }
    let r := (Operation.runAll evictedOnce { limits }).2
    (Operation.registerAck "t" "c" 7).Opens "t" r ∧
      Operation.NeverOpens "t" secondLife.tail ((Operation.registerAck "t" "c" 7).run r).2 ∧
      Operation.InParallel 2 2 (.nextAckId "t" "c") twoThreads ∧
      r.Admits "t" ∧
      (∃ n, issued "t" "c" (Operation.history secondLife r) = List.range n) ∧
      issued "t" "c" (Operation.history (twoThreads.map Prod.snd) r) =
        List.range' (r.counter "t" "c") 4 := by
  intro limits r
  have hopens : (Operation.registerAck "t" "c" 7).Opens "t" r := by decide +kernel
  have hops : Operation.NeverOpens "t" secondLife.tail
      ((Operation.registerAck "t" "c" 7).run r).2 := by decide +kernel
  have hcalls : Operation.InParallel 2 2 (.nextAckId "t" "c") twoThreads := by
    intro thread
    match thread with
    | 0 => rfl
    | 1 => rfl
  have hadmits : r.Admits "t" := .inr (by decide +kernel)
  obtain ⟨-, hlife, hparallel⟩ := issued_since_opening limits 0 evictedOnce "t" "c"
  obtain ⟨n, hissued, -⟩ := hlife _ _ hopens hops
  obtain ⟨-, hnext, -⟩ := hparallel 2 2 twoThreads hcalls
  exact ⟨hopens, hops, hcalls, hadmits, ⟨n, hissued⟩, hnext hadmits⟩

end EventRelay.Ack
