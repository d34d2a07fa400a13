import EventRelay.Proofs.Ack.Counter
import Mathlib.Data.Finset.Card

/-!
# Tokens do not disturb each other

All tokens share one registry, its clock and its bound on sessions. As long as the tokens that are
named in a run are no more than the sessions that may be open, a token cannot tell from its answers,
nor from what its session holds, whether there are others at all: leaving out of the run whatever
names other tokens changes neither (`undisturbed_by_others`).

The two runs are compared step by step. What an operation on a token does hangs on the clock, the
limits, the token's own session, and on whether it may open one (`AlikeTo`, `AlikeTo.run_of_own`).
The last is the one place where other tokens could be felt, and it is settled by counting: every
session belongs to a token that was named (`KnowsOnly`).
-/

namespace EventRelay.Ack

theorem Table.size_le_card {α β : Type} [Ord α] [Std.TransOrd α] [Std.LawfulEqOrd α]
    [DecidableEq α] {t : Table α β} {S : Finset α} (h : ∀ k, t[k]? ≠ none → k ∈ S) :
    t.size ≤ S.card := by
  rw [← Std.ExtTreeMap.length_keys, ← List.toFinset_card_of_nodup Std.ExtTreeMap.nodup_keys]
  apply Finset.card_le_card
  intro k hk
  rw [List.mem_toFinset, Std.ExtTreeMap.mem_keys, ← Std.ExtTreeMap.isSome_getElem?_iff_mem] at hk
  exact h k (Option.isSome_iff_ne_none.1 hk)

namespace Operation

/-- The tokens that a run names. -/
def tokens (ops : List Operation) : Finset String := (ops.filterMap token?).toFinset

/-- Whether an operation names no token but this one. -/
def concerns (token : String) (op : Operation) : Bool := op.token?.all (· = token)

/-- The channel that an operation is about, with its token. -/
def channel? : Operation → Option (String × String)
  | .ensureChannel t c | .nextAckId t c | .registerAck t c _ | .markAcknowledged t c _
  | .isAcknowledged t c _ | .deleteAck t c _ | .listAcks t c | .ackCount t c | .report t c _ =>
    some (t, c)
  | .ensureSession _ | .sweep | .advance _ => none

end Operation

/-- What a token is told: the operations that name it, with their times and answers. -/
def toldTo (token : String) (h : List Moment) : List Moment :=
  h.filter fun m => m.operation.token? = some token

/-! ## Two registries that look alike to a token -/

/-- Two registries agree on all that a token can see. -/
structure AlikeTo (token : String) (r r' : Registry) : Prop where
  limits_eq : r'.limits = r.limits
  now_eq : r'.now = r.now
  sessions_eq : r'.sessions[token]? = r.sessions[token]?

namespace AlikeTo

open Registry

variable {token channel : String} {r r' : Registry} {α : Type}

theorem refl (token : String) (r : Registry) : AlikeTo token r r := ⟨rfl, rfl, rfl⟩

theorem trans_left {r₁ : Registry} (h : AlikeTo token r r') (hlimits : r₁.limits = r.limits)
    (hnow : r₁.now = r.now) (hsessions : r₁.sessions[token]? = r.sessions[token]?) :
    AlikeTo token r₁ r' :=
  ⟨h.limits_eq.trans hlimits.symm, h.now_eq.trans hnow.symm, h.sessions_eq.trans hsessions.symm⟩

theorem put (h : AlikeTo token r r') (s : Session) :
    AlikeTo token (r.put token s) (r'.put token s) := by
  refine ⟨h.limits_eq, h.now_eq, ?_⟩
  rw [sessions_put, sessions_put, if_pos rfl, if_pos rfl, h.now_eq]

theorem session_eq (h : AlikeTo token r r') (hr : r.Admits token) (hr' : r'.Admits token) :
    r'.session token = r.session token := by
  rw [session_of_admits hr, session_of_admits hr', h.sessions_eq, h.now_eq]

theorem ensureSession (h : AlikeTo token r r') (hr : r.Admits token) (hr' : r'.Admits token) :
    (r'.ensureSession token).1 = (r.ensureSession token).1 ∧
      AlikeTo token (r.ensureSession token).2 (r'.ensureSession token).2 := by
  unfold Registry.ensureSession
  rw [h.session_eq hr hr']
  split
  · next s _ => exact ⟨rfl, h.put s⟩
  · exact ⟨rfl, h⟩

theorem onChannel (channel : String) (f : Channel → Except Refusal α × Channel)
    (h : AlikeTo token r r') (hr : r.Admits token) (hr' : r'.Admits token) :
    (r'.onChannel token channel f).1 = (r.onChannel token channel f).1 ∧
      AlikeTo token (r.onChannel token channel f).2 (r'.onChannel token channel f).2 := by
  unfold Registry.onChannel
  rw [h.session_eq hr hr']
  split
  · exact ⟨rfl, h.put _⟩
  · exact ⟨rfl, h⟩

theorem onExisting (channel : String) (absent : α) (f : Channel → α × Channel)
    (h : AlikeTo token r r') :
    (r'.onExisting token channel absent f).1 = (r.onExisting token channel absent f).1 ∧
      AlikeTo token (r.onExisting token channel absent f).2
        (r'.onExisting token channel absent f).2 := by
  unfold Registry.onExisting
  rw [h.sessions_eq]
  split
  · exact ⟨rfl, h⟩
  · next s _ =>
    split
    · exact ⟨rfl, h.put s⟩
    · exact ⟨rfl, h.put _⟩

theorem report (channel : String) (query : Json) (h : AlikeTo token r r') :
    (r'.report token channel query).1 = (r.report token channel query).1 ∧
      AlikeTo token (r.report token channel query).2 (r'.report token channel query).2 := by
  unfold Registry.report
  rw [h.sessions_eq]
  split
  · exact ⟨rfl, h⟩
  · exact ⟨rfl, h⟩
  · split
    · exact ⟨rfl, h⟩
    · exact h.onExisting channel _ _

theorem sweep (h : AlikeTo token r r') : AlikeTo token r.sweep.2 r'.sweep.2 := by
  have hrecent (used : Nat) : r'.Recent used ↔ r.Recent used := by
    rw [Recent, Recent, h.now_eq, h.limits_eq]
  refine ⟨h.limits_eq, h.now_eq, ?_⟩
  rw [sessions_sweep, sessions_sweep, h.sessions_eq, h.now_eq, h.limits_eq]
  congr 2
  funext s
  exact decide_eq_decide.2 (hrecent s.lastAccess)

/-- An operation on a token answers alike in both registries and leaves them alike. -/
theorem run_of_own {op : Operation} (h : AlikeTo token r r') (hop : op.token? = some token)
    (hr : r.Admits token) (hr' : r'.Admits token) :
    (op.run r').1 = (op.run r).1 ∧ AlikeTo token (op.run r).2 (op.run r').2 := by
  cases op with
  | ensureSession t =>
    cases hop
    obtain ⟨hanswer, hafter⟩ := h.ensureSession hr hr'
    exact ⟨congrArg (Answer.ofExcept fun _ => .done) hanswer, hafter⟩
  | ensureChannel t c =>
    cases hop
    obtain ⟨hanswer, hafter⟩ := h.onChannel c (fun c => (.ok (), c)) hr hr'
    exact ⟨congrArg (Answer.ofExcept fun _ => .done) hanswer, hafter⟩
  | nextAckId t c =>
    cases hop
    obtain ⟨hanswer, hafter⟩ := h.onChannel c (fun c => (.ok c.issue.1, c.issue.2)) hr hr'
    exact ⟨congrArg (Answer.ofExcept .id) hanswer, hafter⟩
  | registerAck t c id =>
    cases hop
    obtain ⟨hanswer, hafter⟩ :=
      h.onChannel c (Channel.register r.limits.maxAcks r.now id) hr hr'
    simp only [Operation.run, registerAck, h.limits_eq, h.now_eq]
    exact ⟨congrArg (Answer.ofExcept fun _ => .done) hanswer, hafter⟩
  | markAcknowledged t c id =>
    cases hop
    obtain ⟨hanswer, hafter⟩ := h.onExisting c false (Channel.acknowledge id)
    exact ⟨congrArg Answer.flag hanswer, hafter⟩
  | isAcknowledged t c id =>
    cases hop
    obtain ⟨hanswer, hafter⟩ := h.onExisting c false fun c => (c.status id, c)
    exact ⟨congrArg Answer.flag hanswer, hafter⟩
  | deleteAck t c id =>
    cases hop
    obtain ⟨hanswer, hafter⟩ := h.onExisting c false (Channel.forget id)
    exact ⟨congrArg Answer.flag hanswer, hafter⟩
  | listAcks t c =>
    cases hop
    obtain ⟨hanswer, hafter⟩ := h.onExisting c [] fun c => (c.acks.toList, c)
    exact ⟨congrArg Answer.acks hanswer, hafter⟩
  | ackCount t c =>
    cases hop
    obtain ⟨hanswer, hafter⟩ := h.onExisting c 0 fun c => (c.acks.size, c)
    exact ⟨congrArg Answer.count hanswer, hafter⟩
  | report t c query =>
    cases hop
    obtain ⟨hanswer, hafter⟩ := h.report c query
    exact ⟨congrArg (Answer.ofExcept .statuses) hanswer, hafter⟩
  | sweep => cases hop
  | advance ms => cases hop

/-- What names no token is done to both registries. -/
theorem run_of_shared {op : Operation} (h : AlikeTo token r r') (hop : op.token? = none) :
    AlikeTo token (op.run r).2 (op.run r').2 := by
  cases op with
  | sweep => exact h.sweep
  | advance ms => exact ⟨h.limits_eq, congrArg (· + ms) h.now_eq, h.sessions_eq⟩
  | _ => cases hop

/-- What names another token is done to one registry only. -/
theorem run_of_foreign {op : Operation} {other : String} (h : AlikeTo token r r')
    (hop : op.token? = some other) (hne : other ≠ token) : AlikeTo token (op.run r).2 r' := by
  rcases Operation.run_cases op r with ⟨t, ht, -, hused⟩ | rfl | ⟨ms, rfl⟩ | ⟨hsame, -⟩
  · obtain rfl : t = other := Option.some.inj (ht.symm.trans hop)
    exact h.trans_left hused.limits_eq hused.now_eq (hused.sessions_of_ne hne)
  · cases hop
  · cases hop
  · rwa [hsame]

end AlikeTo

/-! ## Who has a session -/

/-- Only tokens of a set have sessions. -/
def KnowsOnly (S : Finset String) (r : Registry) : Prop := ∀ t, r.lastAccess? t ≠ none → t ∈ S

namespace KnowsOnly

open Registry

variable {S : Finset String} {r : Registry} {token : String}

theorem empty (S : Finset String) (limits : Limits) (now : Nat) :
    KnowsOnly S { limits, now } := by
  intro t ht
  simp [lastAccess?] at ht

theorem run {op : Operation} (h : KnowsOnly S r) (hop : ∀ t, op.token? = some t → t ∈ S) :
    KnowsOnly S (op.run r).2 := by
  intro t ht
  rcases Operation.run_cases op r with ⟨t', ht', -, hused⟩ | rfl | ⟨ms, rfl⟩ | ⟨hsame, -⟩
  · by_cases heq : t' = t
    · exact heq ▸ hop t' ht'
    · rw [hused.lastAccess?_of_ne heq] at ht
      exact h t ht
  · refine h t fun hnone => ht ?_
    rw [Operation.run, lastAccess?_sweep, hnone]
    rfl
  · exact h t ht
  · rw [hsame] at ht
    exact h t ht

/-- If only so many tokens have sessions as there is room for, all of them may have one. -/
theorem admits (h : KnowsOnly S r) (htoken : token ∈ S) (hroom : S.card ≤ r.limits.maxSessions) :
    r.Admits token := by
  by_cases hlive : r.lastAccess? token = none
  · refine .inr ?_
    have hcount : r.sessionCount ≤ (S.erase token).card := by
      apply Table.size_le_card
      intro t ht
      refine Finset.mem_erase.2 ⟨?_, h t fun hnone => ht (by simpa [lastAccess?] using hnone)⟩
      rintro rfl
      exact ht (by simpa [lastAccess?] using hlive)
    have hless := Finset.card_erase_lt_of_mem htoken
    omega
  · exact .inl hlive

end KnowsOnly

/-! ## Two runs -/

namespace Operation

variable {token : String} {r r' : Registry}

theorem mem_tokens {ops : List Operation} {t : String} :
    t ∈ tokens ops ↔ ∃ op ∈ ops, op.token? = some t := by
  rw [tokens, List.mem_toFinset, List.mem_filterMap]

theorem alike_runAll {S : Finset String} {ops : List Operation} (h : AlikeTo token r r')
    (hops : ∀ op ∈ ops, ∀ t, op.token? = some t → t ∈ S) (hroom : S.card ≤ r.limits.maxSessions)
    (hr : KnowsOnly S r) (hr' : KnowsOnly S r') :
    toldTo token (history (ops.filter (concerns token)) r') = toldTo token (history ops r) ∧
      AlikeTo token (runAll ops r).2 (runAll (ops.filter (concerns token)) r').2 := by
  induction ops generalizing r r' with
  | nil => exact ⟨rfl, h⟩
  | cons op ops ih =>
    have hop : ∀ t, op.token? = some t → t ∈ S := hops op List.mem_cons_self
    have hrest : ∀ op ∈ ops, ∀ t, op.token? = some t → t ∈ S :=
      fun op hmem => hops op (List.mem_cons_of_mem _ hmem)
    have hroom' : S.card ≤ (op.run r).2.limits.maxSessions := by rwa [limits_run]
    cases htoken : op.token? with
    | none =>
      have hconcerns : concerns token op = true := by rw [concerns, htoken]; rfl
      obtain ⟨htold, hend⟩ := ih (h.run_of_shared htoken) hrest hroom' (hr.run hop) (hr'.run hop)
      rw [List.filter_cons_of_pos hconcerns]
      refine ⟨?_, hend⟩
      simpa [toldTo, history, htoken] using htold
    | some t =>
      by_cases hown : t = token
      · subst hown
        have hconcerns : concerns t op = true := by simp [concerns, htoken]
        have hmem := hop t htoken
        obtain ⟨hanswer, hafter⟩ := h.run_of_own htoken (hr.admits hmem hroom)
          (hr'.admits hmem (by rwa [h.limits_eq]))
        have hmoment : op.moment r' = op.moment r := by
          rw [moment, moment, h.now_eq, hanswer]
        obtain ⟨htold, hend⟩ := ih hafter hrest hroom' (hr.run hop) (hr'.run hop)
        rw [List.filter_cons_of_pos hconcerns]
        refine ⟨?_, hend⟩
        simpa [toldTo, history, htoken, hmoment] using htold
      · have hconcerns : ¬ concerns token op = true := by simpa [concerns, htoken] using hown
        obtain ⟨htold, hend⟩ := ih (h.run_of_foreign htoken hown) hrest hroom' (hr.run hop) hr'
        rw [List.filter_cons_of_neg hconcerns]
        refine ⟨?_, hend⟩
        simpa [toldTo, history, htoken, hown] using htold

/-! ## Other channels -/

/-- Nothing but a sweep reaches a channel that it does not name. -/
theorem channel?_run_of_ne {op : Operation} {token channel : String} (hsweep : op ≠ .sweep)
    (hne : op.channel? ≠ some (token, channel)) :
    (op.run r).2.channel? token channel = r.channel? token channel := by
  have hapart {t c : String} (h : some (t, c) ≠ some (token, channel)) :
      ¬ (t = token ∧ c = channel) := by
    rintro ⟨rfl, rfl⟩
    exact h rfl
  cases op with
  | ensureSession t => exact Registry.channel?_ensureSession token channel
  | ensureChannel t c => exact Registry.channel?_onChannel_of_ne (hapart hne)
  | nextAckId t c => exact Registry.channel?_onChannel_of_ne (hapart hne)
  | registerAck t c id => exact Registry.channel?_onChannel_of_ne (hapart hne)
  | markAcknowledged t c id => exact Registry.channel?_onExisting_of_ne (α := Bool) (hapart hne)
  | isAcknowledged t c id => exact Registry.channel?_onExisting_of_ne (α := Bool) (hapart hne)
  | deleteAck t c id => exact Registry.channel?_onExisting_of_ne (α := Bool) (hapart hne)
  | listAcks t c =>
    exact Registry.channel?_onExisting_of_ne (α := List (Nat × Ack)) (hapart hne)
  | ackCount t c => exact Registry.channel?_onExisting_of_ne (α := Nat) (hapart hne)
  | report t c query =>
    rw [run]
    unfold Registry.report
    split
    · rfl
    · rfl
    · split
      · rfl
      · exact Registry.channel?_onExisting_of_ne (hapart hne)
  | sweep => exact absurd rfl hsweep
  | advance ms => rfl

end Operation

/-- In a run from an empty registry that names no more tokens than there may be sessions, a token is
told the same, at the same times, as in the run without whatever names other tokens, and its session
is left the same. And in any run, whatever is not a sweep changes the counter and the ids of no
channel but the one that it names. -/
theorem undisturbed_by_others (limits : Limits) (now : Nat) (ops : List Operation)
    (token : String) :
    let own := ops.filter (Operation.concerns token)
    let r := (Operation.runAll ops { limits, now }).2
    ((Operation.tokens ops).card ≤ limits.maxSessions →
      toldTo token (Operation.history own { limits, now }) =
          toldTo token (Operation.history ops { limits, now }) ∧
        (Operation.runAll own { limits, now }).2.sessions[token]? = r.sessions[token]?) ∧
    ∀ (op : Operation) (token' channel' : String), op ≠ .sweep →
      op.channel? ≠ some (token', channel') →
      (op.run r).2.counter token' channel' = r.counter token' channel' ∧
        ∀ id, (op.run r).2.waiting? token' channel' id = r.waiting? token' channel' id := by
  intro own r
  constructor
  · intro hroom
    obtain ⟨htold, hend⟩ := Operation.alike_runAll (AlikeTo.refl token { limits, now })
      (fun op hop t ht => Operation.mem_tokens.2 ⟨op, hop, ht⟩) hroom
      (KnowsOnly.empty _ limits now) (KnowsOnly.empty _ limits now)
    exact ⟨htold, hend.sessions_eq⟩
  · intro op token' channel' hsweep hne
    have hsame := Operation.channel?_run_of_ne (r := r) hsweep hne
    refine ⟨by rw [Registry.counter, hsame, Registry.counter], ?_⟩
    intro id
    rw [Registry.waiting?, hsame, Registry.waiting?]

/-- Two tokens in a registry that has room for two, while idle sessions and old ids are evicted. -/
def crowded : List Operation :=
  [.registerAck "t" "c" 0, .registerAck "u" "c" 0, .advance 60, .ensureSession "u", .advance 60,
    .sweep, .nextAckId "t" "c", .deleteAck "u" "c" 0, .listAcks "t" "c"]

theorem undisturbed_by_others_crowded :
    let limits : Limits := { maxSessions := 2, maxSessionAge := 100 }
    let own := crowded.filter (Operation.concerns "t")
    let r := (Operation.runAll crowded { limits }).2
    (Operation.tokens crowded).card ≤ limits.maxSessions ∧
      toldTo "t" (Operation.history own { limits }) =
        toldTo "t" (Operation.history crowded { limits }) ∧
      ((Operation.registerAck "u" "c" 1).run r).2.waiting? "t" "c" 0 = r.waiting? "t" "c" 0 := by
  intro limits own r
  have hroom : (Operation.tokens crowded).card ≤ limits.maxSessions := by decide +kernel
  have hne : (Operation.registerAck "u" "c" 1).channel? ≠ some ("t", "c") := by decide
  obtain ⟨hruns, hstep⟩ := undisturbed_by_others limits 0 crowded "t"
  exact ⟨hroom, (hruns hroom).1, (hstep _ _ _ Operation.noConfusion hne).2 0⟩

end EventRelay.Ack
