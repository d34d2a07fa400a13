import EventRelay.Proofs.Ack.Numbering
import EventRelay.Proofs.Ack.Sweeping

/-!
# Use keeps a session alive

What names a token and is not refused counts as use of its session. So for as long as sessions may
be idle no sweep evicts it: whatever else happens, the session is there all the time, and its
channels with it, whose counters do not fall (`alive_after_use`).

There is one exception. A query without a field of ids is answered before anybody looks for its
session and leaves the registry as it is. A client that asks nothing else is idle, and its session
is evicted (`evicted_while_asking`).
-/

namespace EventRelay.Ack

/-- Whether an operation is a query without a field of ids. -/
def Operation.AsksNothing : Operation → Prop
  | .report _ _ query => Registry.queriedIds? query = none
  | _ => False

/-- The session of a token is still there, and so are its channels, with counters that have not
fallen. -/
structure Registry.Retains (token : String) (r r' : Registry) : Prop where
  live : r'.lastAccess? token ≠ none
  counters : ∀ {channel : String} {n : Nat}, r.counter? token channel = some n →
    ∃ n', n ≤ n' ∧ r'.counter? token channel = some n'

namespace Registry

variable {r r' r'' : Registry} {token channel token' channel' : String} {c : Channel} {α : Type}

theorem Retains.refl (h : r.lastAccess? token ≠ none) : r.Retains token r :=
  ⟨h, fun hn => ⟨_, Nat.le_refl _, hn⟩⟩

theorem Retains.trans (h : r.Retains token r') (h' : r'.Retains token r'') :
    r.Retains token r'' := by
  refine ⟨h'.live, ?_⟩
  intro channel n hn
  obtain ⟨n₁, hle, hn₁⟩ := h.counters hn
  obtain ⟨n₂, hle', hn₂⟩ := h'.counters hn₁
  exact ⟨n₂, Nat.le_trans hle hle', hn₂⟩

theorem counter_of_counter? {n : Nat} (h : r.counter? token channel = some n) :
    r.counter token channel = n := by
  change (r.counter? token channel).getD 0 = n
  rw [h, Option.getD_some]

/-! ## Channels that stay -/

theorem exists_channel?_onChannel {f : Channel → Except Refusal α × Channel}
    (hc : r.channel? token' channel' = some c) :
    ∃ c', (r.onChannel token channel f).2.channel? token' channel' = some c' := by
  cases hs : r.session token with
  | error e =>
    rw [onChannel_of_error hs]
    exact ⟨c, hc⟩
  | ok s =>
    rw [channel?_onChannel hs]
    split
    · exact ⟨_, rfl⟩
    · exact ⟨c, hc⟩

theorem exists_channel?_onExisting {absent : α} {f : Channel → α × Channel}
    (hc : r.channel? token' channel' = some c) :
    ∃ c', (r.onExisting token channel absent f).2.channel? token' channel' = some c' := by
  rw [channel?_onExisting, hc]
  split
  · exact ⟨_, rfl⟩
  · exact ⟨c, rfl⟩

end Registry

namespace Operation

open Registry

variable {op : Operation} {r : Registry} {token channel : String} {c : Channel} {used : Nat}

/-- A channel is gone only with its session. -/
theorem exists_channel?_run (h : r.lastAccess? token = some used)
    (hrecent : op = .sweep → r.Recent used) (hc : r.channel? token channel = some c) :
    ∃ c', (op.run r).2.channel? token channel = some c' := by
  cases op with
  | ensureSession t => exact ⟨c, (channel?_ensureSession token channel).trans hc⟩
  | ensureChannel t ch => exact exists_channel?_onChannel hc
  | nextAckId t ch => exact exists_channel?_onChannel hc
  | registerAck t ch id => exact exists_channel?_onChannel hc
  | markAcknowledged t ch id => exact exists_channel?_onExisting (α := Bool) hc
  | isAcknowledged t ch id => exact exists_channel?_onExisting (α := Bool) hc
  | deleteAck t ch id => exact exists_channel?_onExisting (α := Bool) hc
  | listAcks t ch => exact exists_channel?_onExisting (α := List (Nat × Ack)) hc
  | ackCount t ch => exact exists_channel?_onExisting (α := Nat) hc
  | report t ch query =>
    rw [run]
    unfold Registry.report
    split
    · exact ⟨c, hc⟩
    · exact ⟨c, hc⟩
    · split
      · exact ⟨c, hc⟩
      · exact exists_channel?_onExisting hc
  | sweep =>
    have hkept := channel?_sweep_of_recent h (hrecent rfl) channel
    rw [hc] at hkept
    exact ⟨_, hkept⟩
  | advance ms => exact ⟨c, hc⟩

theorem retains_run (h : r.lastAccess? token = some used)
    (hrecent : op = .sweep → r.Recent used) : r.Retains token (op.run r).2 := by
  constructor
  · obtain ⟨⟨used', hused'⟩, -⟩ := live_run h hrecent ""
    rw [hused']
    exact Option.some_ne_none used'
  · intro channel n hn
    obtain ⟨c, hc, -⟩ := Option.map_eq_some_iff.1 hn
    obtain ⟨c', hc'⟩ := exists_channel?_run h hrecent hc
    have hn' : (op.run r).2.counter? token channel = some c'.nextId := by
      rw [counter?, hc', Option.map_some]
    obtain ⟨-, hle⟩ := live_run h hrecent channel
    rw [counter_of_counter? hn, counter_of_counter? hn'] at hle
    exact ⟨c'.nextId, hle, hn'⟩

/-- A session that is used at some time or later lives on for as long as it may be idle. -/
theorem retains_runAll {time : Nat} {ops : List Operation} (h : r.lastAccess? token = some used)
    (hused : time ≤ used) (hnow : time ≤ r.now)
    (hend : (runAll ops r).2.now ≤ time + r.limits.maxSessionAge) :
    NeverOpens token ops r ∧ r.Retains token (runAll ops r).2 := by
  induction ops generalizing r used with
  | nil => exact ⟨trivial, .refl (by rw [h]; exact Option.some_ne_none used)⟩
  | cons op ops ih =>
    have hlater : (op.run r).2.now ≤ time + r.limits.maxSessionAge :=
      Nat.le_trans (now_le_runAll ops _) hend
    have hstill : r.now ≤ (op.run r).2.now := now_le_run op r
    have hrecent : r.Recent used := by
      unfold Recent
      omega
    have hstep : r.Retains token (op.run r).2 := retains_run h fun _ => hrecent
    obtain ⟨used', hused'⟩ := Option.ne_none_iff_exists'.1 hstep.live
    have htime : time ≤ used' := by
      rcases of_lastAccess?_run hused' with rfl | hsame
      · exact hnow
      · rw [h] at hsame
        exact Option.some.inj hsame ▸ hused
    have hend' : (runAll ops (op.run r).2).2.now ≤ time + (op.run r).2.limits.maxSessionAge := by
      rw [limits_run]
      exact hend
    obtain ⟨hnever, hrest⟩ := ih hused' htime (Nat.le_trans hnow hstill) hend'
    have hopens : ¬ op.Opens token r := by
      rintro ⟨hnone, -⟩
      rw [h] at hnone
      cases hnone
    exact ⟨⟨hopens, hnever⟩, hstep.trans hrest⟩

/-! ## What counts as use -/

theorem run_of_asksNothing (h : op.AsksNothing) : (op.run r).2 = r := by
  cases op with
  | report t ch query =>
    change queriedIds? query = none at h
    exact report_of_unused (by rw [h]; rfl)
  | _ => exact h.elim

theorem uses_of_not_refused (htoken : op.token? = some token) (hasks : ¬ op.AsksNothing)
    (hok : ∀ refusal, (op.run r).1 ≠ .refused refusal) : op.uses token = true := by
  cases op with
  | report t ch query =>
    obtain rfl : t = token := Option.some.inj htoken
    cases hq : queriedIds? query with
    | none => exact absurd hq hasks
    | some x =>
      cases x with
      | error e =>
        refine absurd ?_ (hok e)
        simp only [run, Registry.report, hq, Answer.ofExcept]
      | ok ids => simp [uses, hq, Except.isOk, Except.toBool]
  | sweep => cases htoken
  | advance ms => cases htoken
  | _ => exact decide_eq_true htoken

end Operation

/-- If a session lives, whatever names its token and is not refused keeps it, with its channels and
their counters, through all that is done up to the time at which it has been idle for the age that
is allowed; only a query without a field of ids leaves everything as it was, also the last use. -/
theorem alive_after_use {op : Operation} {r : Registry} {token : String}
    (hlive : r.lastAccess? token ≠ none) (htoken : op.token? = some token)
    (hok : ∀ refusal, (op.run r).1 ≠ .refused refusal) :
    (op.AsksNothing → (op.run r).2 = r) ∧
    (¬ op.AsksNothing → r.Retains token (op.run r).2 ∧
      ∀ later : List Operation,
        (Operation.runAll later (op.run r).2).2.now ≤ r.now + r.limits.maxSessionAge →
        Operation.NeverOpens token later (op.run r).2 ∧
          (op.run r).2.Retains token (Operation.runAll later (op.run r).2).2) := by
  refine ⟨Operation.run_of_asksNothing, ?_⟩
  intro hasks
  have huses : op.uses token = true := Operation.uses_of_not_refused htoken hasks hok
  obtain ⟨used, hused⟩ := Option.ne_none_iff_exists'.1 hlive
  have hstep : r.Retains token (op.run r).2 := by
    refine Operation.retains_run hused ?_
    rintro rfl
    cases htoken
  refine ⟨hstep, ?_⟩
  intro later hend
  have hnow : (op.run r).2.lastAccess? token = some r.now := by
    rcases Operation.lastAccess?_run_of_uses (r := r) huses with hnow | ⟨hnone, -⟩
    · exact hnow
    · exact absurd hnone hlive
  refine Operation.retains_runAll hnow (Nat.le_refl _) (Operation.now_le_run op r) ?_
  rwa [Operation.limits_run]

/-- A registry in which a session of a channel was used for the last time a while ago. -/
def usedBefore : Registry :=
  (Operation.runAll [.nextAckId "t" "c", .advance 60] { limits := { maxSessionAge := 100 } }).2

/-- An id that does not wait is marked, and a sweep comes at the last moment. -/
theorem alive_after_use_usedBefore :
    let op : Operation := .markAcknowledged "t" "c" 7
    let later : List Operation := [.advance 100, .sweep]
    usedBefore.lastAccess? "t" ≠ none ∧ ¬ op.AsksNothing ∧
      (∀ refusal, (op.run usedBefore).1 ≠ .refused refusal) ∧
      (Operation.runAll later (op.run usedBefore).2).2.now ≤
        usedBefore.now + usedBefore.limits.maxSessionAge ∧
      (op.run usedBefore).2.Retains "t" (Operation.runAll later (op.run usedBefore).2).2 := by
  intro op later
  have hlive : usedBefore.lastAccess? "t" ≠ none := by decide +kernel
  have hasks : ¬ op.AsksNothing := not_false
  have hok : ∀ refusal, (op.run usedBefore).1 ≠ .refused refusal := nofun
  have hend : (Operation.runAll later (op.run usedBefore).2).2.now ≤
      usedBefore.now + usedBefore.limits.maxSessionAge := by decide +kernel
  obtain ⟨-, hkept⟩ := alive_after_use hlive rfl hok
  exact ⟨hlive, hasks, hok, hend, ((hkept hasks).2 later hend).2⟩

/-- Not everything that names a token and is not refused keeps its session: who only asks a query
without a field of ids is evicted, and is issued the same ids again. -/
theorem evicted_while_asking :
    ¬ ∀ (limits : Limits) (before : List Operation) (op : Operation) (token : String)
        (later : List Operation),
      let r := (Operation.runAll before { limits }).2
      r.lastAccess? token ≠ none → op.token? = some token →
      (∀ refusal, (op.run r).1 ≠ .refused refusal) →
      (Operation.runAll later (op.run r).2).2.now ≤ r.now + limits.maxSessionAge →
      (op.run r).2.Retains token (Operation.runAll later (op.run r).2).2 := by
  intro h
  have hok : ∀ refusal,
      ((Operation.report "t" "c" (.object [])).run usedBefore).1 ≠ .refused refusal := nofun
  have hkept := h { maxSessionAge := 100 } [.nextAckId "t" "c", .advance 60]
    (.report "t" "c" (.object [])) "t" [.advance 60, .sweep] (by decide +kernel) rfl hok
    (by decide +kernel)
  exact hkept.live (by decide +kernel)

end EventRelay.Ack
