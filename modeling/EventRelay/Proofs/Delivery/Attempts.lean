import EventRelay.Delivery.Memory
import EventRelay.Proofs.Delivery.Batch
import EventRelay.Proofs.Delivery.Rounds

/-!
# How often a sender tries

A sender with a bound on its attempts, which counts as one at least, makes so many commits at most,
and so many connects between two of them. Each failure is torn down, and a pause follows unless the
sender gives up. `Delivers` says so of everything that a sender does in one send, and `Does` that
the transport took part in it and gave the answers that it gives.

A round of connects fails as often as the transport refuses, or as often as it may (`Refuses`,
`establish_bounded`), a send takes up these rounds (`deliver_bounded`), and both leave a sender that
can be used again (`attempts_bounded`).
-/

namespace EventRelay.Delivery

/-! ## What is done -/

/-- One thing that a sender does to deliver a batch. -/
inductive Act where
  /-- A connect, and whether it succeeded. -/
  | connect (ok : Bool)
  /-- A commit of what was pending, and what came of it. -/
  | commit (pending : List (Nat × Bytes)) (result : Commit)
  | tearDown
  /-- A pause before the next attempt. -/
  | pause

/-- A commit left nothing pending of what it was offered. -/
def Commit.Verifies (result : Commit) (pending : List (Nat × Bytes)) : Prop :=
  ∀ e ∈ pending, e.1 ∈ result.confirmed

instance (result : Commit) (pending : List (Nat × Bytes)) : Decidable (result.Verifies pending) :=
  inferInstanceAs (Decidable (∀ e ∈ pending, e.1 ∈ result.confirmed))

namespace Act

def isConnect : Act → Bool
  | .connect _ => true
  | _ => false

def isCommit : Act → Bool
  | .commit _ _ => true
  | _ => false

def isPause : Act → Bool
  | .pause => true
  | _ => false

/-- A connect that did not succeed, or a commit that left something pending. -/
def fails : Act → Bool
  | .connect ok => !ok
  | .commit pending result => !decide (result.Verifies pending)
  | _ => false

end Act

/-- So many connects in vain, each of them torn down and followed by a pause. -/
def redials : Nat → List Act
  | 0 => []
  | k + 1 => .connect false :: .tearDown :: .pause :: redials k

/-- What is done to have a connection, if there is one already or not, in at most `n` attempts. -/
inductive Readies (n : Nat) : Bool → List Act → Except Fault Unit → Prop
  | linked : Readies n true [] (.ok ())
  | connects {k : Nat} (h : k < n) : Readies n false (redials k ++ [.connect true]) (.ok ())
  | unreachable : Readies n false (redials (n - 1) ++ [.connect false, .tearDown])
      (.error (.retriesExhausted n))

/-- What is done to deliver a batch, with a connection or without one and after so many commits, if
`n` attempts may be made to connect, each time, and to commit. -/
inductive Delivers (n : Nat) : Bool → Nat → List Act → Except Fault Unit → Prop
  | unreachable {linked : Bool} {commits : Nat} {acts : List Act} {fault : Fault}
    (h : Readies n linked acts (.error fault)) : Delivers n linked commits acts (.error fault)
  | verified {linked : Bool} {commits : Nat} {acts : List Act} {pending : List (Nat × Bytes)}
    {result : Commit} (h : Readies n linked acts (.ok ())) (hall : result.Verifies pending) :
    Delivers n linked commits (acts ++ [.commit pending result]) (.ok ())
  | retries {linked : Bool} {commits : Nat} {acts later : List Act} {pending : List (Nat × Bytes)}
    {result : Commit} {answer : Except Fault Unit} (h : Readies n linked acts (.ok ()))
    (hnot : ¬ result.Verifies pending) (hmore : commits + 1 < n)
    (hlater : Delivers n false (commits + 1) later answer) :
    Delivers n linked commits (acts ++ .commit pending result :: .tearDown :: .pause :: later)
      answer
  | exhausts {linked : Bool} {commits : Nat} {acts : List Act} {pending : List (Nat × Bytes)}
    {result : Commit} (h : Readies n linked acts (.ok ())) (hnot : ¬ result.Verifies pending)
    (hlast : commits + 1 = n) :
    Delivers n linked commits (acts ++ [.commit pending result, .tearDown])
      (.error (.retriesExhausted n))

@[simp] theorem countP_redials (p : Act → Bool) (k : Nat) :
    (redials k).countP p = k * [Act.connect false, .tearDown, .pause].countP p := by
  induction k with
  | zero => simp [redials]
  | succ k ih =>
    have hsplit : redials (k + 1) = [.connect false, .tearDown, .pause] ++ redials k := rfl
    rw [hsplit, List.countP_append, ih, Nat.succ_mul, Nat.add_comm]

section Counts

variable {n commits : Nat} {linked : Bool} {acts : List Act} {answer : Except Fault Unit}

theorem Readies.no_commit (h : Readies n linked acts answer) : acts.countP Act.isCommit = 0 := by
  cases h <;> simp [Act.isCommit]

theorem Readies.connects_le (h : Readies n linked acts answer) (hn : 0 < n) :
    acts.countP Act.isConnect ≤ n := by
  cases h with
  | linked => exact Nat.zero_le n
  | connects hk => simpa [List.countP_cons, Act.isConnect, Nat.succ_le_iff] using hk
  | unreachable =>
    have hlast : n - 1 + 1 ≤ n := by omega
    simpa [List.countP_cons, Act.isConnect] using hlast

theorem Delivers.commits_le (h : Delivers n linked commits acts answer) (hlt : commits < n) :
    commits + acts.countP Act.isCommit ≤ n := by
  induction h with
  | unreachable h => simpa [h.no_commit] using Nat.le_of_lt hlt
  | verified h hall =>
    simpa [h.no_commit, List.countP_cons, Act.isCommit, Nat.succ_le_iff] using hlt
  | retries h hnot hmore hlater ih =>
    have hrest := ih hmore
    simpa [h.no_commit, List.countP_cons, Act.isCommit, Nat.add_assoc, Nat.add_comm 1] using hrest
  | exhausts h hnot hlast =>
    simpa [h.no_commit, List.countP_cons, Act.isCommit, Nat.succ_le_iff] using hlt

theorem Readies.fails_eq (h : Readies n linked acts answer) :
    acts.countP Act.fails = acts.countP Act.isPause + if answer.isOk then 0 else 1 := by
  cases h <;> simp [Act.fails, Act.isPause, Except.isOk, Except.toBool]

/-- Each failure but the one that a sender gives up after is followed by a pause. -/
theorem Delivers.fails_eq (h : Delivers n linked commits acts answer) :
    acts.countP Act.fails = acts.countP Act.isPause + if answer.isOk then 0 else 1 := by
  induction h with
  | unreachable h => exact h.fails_eq
  | verified h hall =>
    simpa [List.countP_cons, Act.fails, Act.isPause, hall] using h.fails_eq
  | @retries _ _ acts later pending result answer h hnot hmore hlater ih =>
    have hready : acts.countP Act.fails = acts.countP Act.isPause := h.fails_eq
    have hnext : (Act.commit pending result :: .tearDown :: .pause :: later).countP Act.fails =
        later.countP Act.fails + 1 := by simp [Act.fails, hnot]
    have hpause : (Act.commit pending result :: .tearDown :: .pause :: later).countP Act.isPause =
        later.countP Act.isPause + 1 := by simp [List.countP_cons, Act.isPause]
    rw [List.countP_append, List.countP_append, hready, hnext, hpause, ih]
    omega
  | @exhausts _ _ acts pending result h hnot hlast =>
    have hready : acts.countP Act.fails = acts.countP Act.isPause := h.fails_eq
    have hnext : [Act.commit pending result, .tearDown].countP Act.fails = 1 := by
      simp [Act.fails, hnot]
    rw [List.countP_append, List.countP_append, hready, hnext]
    rfl

/-- There are at most `n` connects before the first commit, between two and after the last. -/
def Sparse (n : Nat) (acts : List Act) : Prop :=
  ∀ part ∈ acts.splitOnP Act.isCommit, part.countP Act.isConnect ≤ n

theorem sparse_of_no_commit (h : acts.countP Act.isCommit = 0)
    (hle : acts.countP Act.isConnect ≤ n) : Sparse n acts := by
  intro part hpart
  rw [List.splitOnP_eq_singleton (by simpa using h), List.mem_singleton] at hpart
  rwa [hpart]

theorem sparse_append_commit (h : acts.countP Act.isCommit = 0)
    (hle : acts.countP Act.isConnect ≤ n) {later : List Act} (hlater : Sparse n later)
    (pending : List (Nat × Bytes)) (result : Commit) :
    Sparse n (acts ++ .commit pending result :: later) := by
  intro part hpart
  rw [List.splitOnP_append_cons_of_forall_mem (by simpa using h) _ rfl, List.mem_cons] at hpart
  rcases hpart with rfl | hpart
  · exact hle
  · exact hlater part hpart

theorem Delivers.sparse (h : Delivers n linked commits acts answer) (hn : 0 < n)
    {before : List Act} (hcommit : before.countP Act.isCommit = 0)
    (hconnect : before.countP Act.isConnect = 0) : Sparse n (before ++ acts) := by
  have hready {linked : Bool} {acts : List Act} {answer : Except Fault Unit}
      (h : Readies n linked acts answer) {before : List Act}
      (hcommit : before.countP Act.isCommit = 0) (hconnect : before.countP Act.isConnect = 0) :
      (before ++ acts).countP Act.isCommit = 0 ∧ (before ++ acts).countP Act.isConnect ≤ n := by
    rw [List.countP_append, List.countP_append, hcommit, hconnect, Nat.zero_add, Nat.zero_add]
    exact ⟨h.no_commit, h.connects_le hn⟩
  induction h generalizing before with
  | unreachable h =>
    obtain ⟨hnone, hle⟩ := hready h hcommit hconnect
    exact sparse_of_no_commit hnone hle
  | verified h hall =>
    obtain ⟨hnone, hle⟩ := hready h hcommit hconnect
    have hend : Sparse n [] := sparse_of_no_commit rfl (Nat.zero_le n)
    rw [← List.append_assoc]
    exact sparse_append_commit hnone hle hend _ _
  | @retries _ _ _ later _ _ _ h hnot hmore hlater ih =>
    obtain ⟨hnone, hle⟩ := hready h hcommit hconnect
    have hnext : Sparse n ([.tearDown, .pause] ++ later) := ih rfl rfl
    rw [← List.append_assoc]
    exact sparse_append_commit hnone hle hnext _ _
  | exhausts h hnot hlast =>
    obtain ⟨hnone, hle⟩ := hready h hcommit hconnect
    have hend : Sparse n [.tearDown] := sparse_of_no_commit rfl (Nat.zero_le n)
    rw [← List.append_assoc]
    exact sparse_append_commit hnone hle hend _ _

end Counts

/-! ## Transports that answer -/

section Transports

variable {σ : Type} [Transport σ]

/-- A transport answers every call, whatever it is made to do with the answers in between. -/
structure Answers (I : σ → Prop) : Prop where
  connect : ∀ t, I t → ∃ after ok t' left,
    Transport.connect t = .returns after ok t' left ∧ I t'
  commit : ∀ t, I t → ∀ pending, ∃ after result t' left,
    Transport.commit pending t = .returns after result t' left ∧ I t'
  tearDown : ∀ t, I t → I (Transport.tearDown t)

/-- All calls of a transport return, now and later. -/
def Answering (t : σ) : Prop := ∃ I, Answers I ∧ I t

variable {t t' t₁ : σ} {interval : Nat}

theorem Answering.connect (h : Answering t) : ∃ after ok t' left,
    Transport.connect t = .returns after ok t' left ∧ Answering t' := by
  obtain ⟨I, hI, ht⟩ := h
  obtain ⟨after, ok, t', left, heq, ht'⟩ := hI.connect t ht
  exact ⟨after, ok, t', left, heq, I, hI, ht'⟩

theorem Answering.commit (h : Answering t) (pending : List (Nat × Bytes)) :
    ∃ after result t' left,
      Transport.commit pending t = .returns after result t' left ∧ Answering t' := by
  obtain ⟨I, hI, ht⟩ := h
  obtain ⟨after, result, t', left, heq, ht'⟩ := hI.commit t ht pending
  exact ⟨after, result, t', left, heq, I, hI, ht'⟩

theorem Answering.tearDown (h : Answering t) : Answering (Transport.tearDown t) := by
  obtain ⟨I, hI, ht⟩ := h
  exact ⟨I, hI, hI.tearDown t ht⟩

/-- The next connects fail, so many of them, each of them torn down, and this is what is left. -/
inductive Refuses : Nat → σ → σ → Prop
  | none (t : σ) : Refuses 0 t t
  | once {k after : Nat} {t t' t'' left : σ}
    (h : Transport.connect t = .returns after false t' left)
    (later : Refuses k (Transport.tearDown t') t'') : Refuses (k + 1) t t''

theorem Refuses.answering {k : Nat} (h : Refuses k t t') (ht : Answering t) : Answering t' := by
  induction h with
  | none t => exact ht
  | once hconnect later ih =>
    obtain ⟨after, ok, t', left, heq, ht'⟩ := ht.connect
    rw [hconnect] at heq
    cases heq
    exact ih ht'.tearDown

theorem Refuses.split {j k : Nat} (h : Refuses (j + k) t t') :
    ∃ t₁, Refuses j t t₁ ∧ Refuses k t₁ t' := by
  induction j generalizing t with
  | zero =>
    rw [Nat.zero_add] at h
    exact ⟨t, .none t, h⟩
  | succ j ih =>
    rw [Nat.add_right_comm] at h
    cases h with
    | once hconnect later =>
      obtain ⟨t₁, hj, hk⟩ := ih later
      exact ⟨t₁, .once hconnect hj, hk⟩

/-- A transport that answers refuses fewer connects than `n`, or `n` at least. -/
theorem Answering.refuses (h : Answering t) (n : Nat) :
    (∃ k t₁ after t₂ left, k < n ∧ Refuses k t t₁ ∧
      Transport.connect t₁ = .returns after true t₂ left ∧ Answering t₂) ∨
      ∃ t₁, Refuses n t t₁ := by
  induction n generalizing t with
  | zero => exact .inr ⟨t, .none t⟩
  | succ n ih =>
    obtain ⟨after, ok, t', left, heq, ht'⟩ := h.connect
    cases ok with
    | true => exact .inl ⟨0, t, after, t', left, Nat.succ_pos n, .none t, heq, ht'⟩
    | false =>
      rcases ih ht'.tearDown with ⟨k, t₁, after', t₂, left', hk, hrefuses, hconnect, ht₂⟩ | ⟨t₁, hn⟩
      · exact .inl ⟨k + 1, t₁, after', t₂, left', Nat.succ_lt_succ hk, .once heq hrefuses,
          hconnect, ht₂⟩
      · exact .inr ⟨t₁, .once heq hn⟩

/-- A transport takes part in what is done and gives the answers that it gives. The time that calls
and pauses take is waited. -/
inductive Does (interval : Nat) : Wait → σ → List Act → Wait → σ → Prop
  | nil (w : Wait) (t : σ) : Does interval w t [] w t
  | connect {w w' : Wait} {t t₁ t' left : σ} {after : Nat} {ok : Bool} {acts : List Act}
    (h : Transport.connect t = .returns after ok t₁ left)
    (later : Does interval { w with elapsed := w.elapsed + after } t₁ acts w' t') :
    Does interval w t (.connect ok :: acts) w' t'
  | commit {w w' : Wait} {t t₁ t' left : σ} {after : Nat} {pending : List (Nat × Bytes)}
    {result : Commit} {acts : List Act}
    (h : Transport.commit pending t = .returns after result t₁ left)
    (later : Does interval { w with elapsed := w.elapsed + after } t₁ acts w' t') :
    Does interval w t (.commit pending result :: acts) w' t'
  | tearDown {w w' : Wait} {t t' : σ} {acts : List Act}
    (later : Does interval w (Transport.tearDown t) acts w' t') :
    Does interval w t (.tearDown :: acts) w' t'
  | pause {w w' : Wait} {t t' : σ} {acts : List Act}
    (later : Does interval ⟨w.sleeps + 1, w.elapsed + interval⟩ t acts w' t') :
    Does interval w t (.pause :: acts) w' t'

variable {w w₁ w' : Wait} {acts acts' : List Act}

theorem Does.append (h : Does interval w t acts w₁ t₁) (h' : Does interval w₁ t₁ acts' w' t') :
    Does interval w t (acts ++ acts') w' t' := by
  induction h with
  | nil => exact h'
  | connect h _ ih => exact .connect h (ih h')
  | commit h _ ih => exact .commit h (ih h')
  | tearDown _ ih => exact .tearDown (ih h')
  | pause _ ih => exact .pause (ih h')

/-- Who waits sleeps once for each pause. -/
theorem Does.sleeps_eq (h : Does interval w t acts w' t') :
    w'.sleeps = w.sleeps + acts.countP Act.isPause := by
  induction h with
  | nil => rfl
  | connect _ _ ih => simpa [List.countP_cons, Act.isPause] using ih
  | commit _ _ ih => simpa [List.countP_cons, Act.isPause] using ih
  | tearDown _ ih => simpa [List.countP_cons, Act.isPause] using ih
  | pause _ ih => simpa [List.countP_cons, Act.isPause, Nat.add_assoc, Nat.add_comm 1] using ih

/-! ## The sender -/

theorem RetryPolicy.not_exhausted_of_lt {policy : RetryPolicy} {m k : Nat}
    (hbound : policy.maxAttempts = some m) (h : k + 1 < max m 1) :
    policy.exhausted (k + 1) = false := by
  simp only [exhausted, hbound, decide_eq_false_iff_not]
  omega

theorem RetryPolicy.exhausted_of_le {policy : RetryPolicy} {m k : Nat}
    (hbound : policy.maxAttempts = some m) (h : max m 1 ≤ k + 1) :
    policy.exhausted (k + 1) = true := by
  simp only [exhausted, hbound, decide_eq_true_iff]
  omega

namespace Sender

/-- How a sender is left when it is done, after at most `n` attempts. -/
inductive Ended (n : Nat) : Except Fault Unit → Sender σ → Prop
  | delivered {s : Sender σ} (hstate : s.state = .connected) : Ended n (.ok ()) s
  | exhausted {s : Sender σ} (hstate : s.state = .connecting)
    (htorn : ∃ t, s.transport = Transport.tearDown t) : Ended n (.error (.retriesExhausted n)) s

/-- What is done leads from a transport to a sender that is done. -/
structure Leads (policy : RetryPolicy) (n : Nat) (w : Wait) (t : σ) (acts : List Act) (w' : Wait)
    (answer : Except Fault Unit) (s' : Sender σ) : Prop where
  does : Does policy.interval w t acts w' s'.transport
  policy_eq : s'.policy = policy
  answering : Answering s'.transport
  ended : Ended n answer s'

variable {policy : RetryPolicy} {m : Nat}

section Bounded

variable (hbound : policy.maxAttempts = some m)
include hbound

theorem establish_redials {k i : Nat} (h : Refuses k t t₁) (hlt : i + k < max m 1) (w : Wait) :
    ∃ w₁, Does policy.interval w t (redials k) w₁ t₁ ∧ ∀ rounds,
      establish .forever (rounds + k) i w { transport := t, policy } =
        establish .forever rounds (i + k) w₁ { transport := t₁, policy } := by
  induction h generalizing i w with
  | none t => exact ⟨w, .nil w t, fun _ => rfl⟩
  | @once k after t t' t'' left hconnect later ih =>
    have hmore := RetryPolicy.not_exhausted_of_lt hbound (show i + 1 < max m 1 by omega)
    obtain ⟨w₁, hdoes, hrounds⟩ := ih (show i + 1 + k < max m 1 by omega)
      ⟨w.sleeps + 1, w.elapsed + after + policy.interval⟩
    refine ⟨w₁, .connect hconnect (.tearDown (.pause hdoes)), fun rounds => ?_⟩
    have hstep := establish_retries (s := { transport := t, policy }) hconnect hmore (rounds + k) w
    rw [← Nat.add_assoc, hstep, Nat.add_comm k 1, ← Nat.add_assoc]
    exact hrounds rounds

theorem establish_of_refuses_lt {k after : Nat} {t₂ left : σ} (h : Refuses k t t₁)
    (hk : k < max m 1) (hconnect : Transport.connect t₁ = .returns after true t₂ left) (w : Wait) :
    ∃ w', Does policy.interval w t (redials k ++ [.connect true]) w' t₂ ∧
      ∀ rounds, max m 1 ≤ rounds →
        establish .forever rounds 0 w { transport := t, policy } =
          some (.returned w' (.ok ()) { transport := t₂, policy, state := .connected }) := by
  obtain ⟨w₁, hdoes, hrounds⟩ := establish_redials hbound h (show 0 + k < max m 1 by omega) w
  refine ⟨{ w₁ with elapsed := w₁.elapsed + after },
    hdoes.append (.connect hconnect (.nil _ _)), fun rounds hle => ?_⟩
  obtain ⟨r, rfl⟩ : ∃ r, rounds = r + 1 + k := ⟨rounds - k - 1, by omega⟩
  rw [hrounds]
  exact establish_connects (s := { transport := t₁, policy }) hconnect r (0 + k) w₁

theorem establish_of_refuses (h : Refuses (max m 1) t t₁) (w : Wait) :
    ∃ w', Does policy.interval w t (redials (max m 1 - 1) ++ [.connect false, .tearDown]) w' t₁ ∧
      (∃ t₂, t₁ = Transport.tearDown t₂) ∧ ∀ rounds, max m 1 ≤ rounds →
        establish .forever rounds 0 w { transport := t, policy } =
          some (.returned w' (.error (.retriesExhausted (max m 1)))
            { transport := t₁, policy }) := by
  obtain ⟨k, hk⟩ : ∃ k, max m 1 = k + 1 := ⟨max m 1 - 1, by omega⟩
  rw [hk] at h ⊢
  obtain ⟨t₂, hfirst, hlast⟩ := h.split
  obtain ⟨w₁, hdoes, hrounds⟩ := establish_redials hbound hfirst (show 0 + k < max m 1 by omega) w
  cases hlast with
  | @once _ after _ t₃ _ left hconnect later =>
    cases later
    refine ⟨{ w₁ with elapsed := w₁.elapsed + after },
      hdoes.append (.connect hconnect (.tearDown (.nil _ _))), ⟨t₃, rfl⟩, fun rounds hle => ?_⟩
    obtain ⟨r, rfl⟩ : ∃ r, rounds = r + 1 + k := ⟨rounds - k - 1, by omega⟩
    have hexhausted := RetryPolicy.exhausted_of_le hbound (show max m 1 ≤ 0 + k + 1 by omega)
    rw [hrounds, establish_exhausted (s := { transport := t₂, policy }) hconnect hexhausted,
      Nat.zero_add]
    rfl

/-- A round of connects comes to its end within the attempts that it has. -/
theorem establish_bounded (h : Answering t) (w : Wait) :
    ∃ acts w' answer s', Readies (max m 1) false acts answer ∧
      Leads policy (max m 1) w t acts w' answer s' ∧ ∀ rounds, max m 1 ≤ rounds →
        establish .forever rounds 0 w { transport := t, policy } =
          some (.returned w' answer s') := by
  rcases h.refuses (max m 1) with ⟨k, t₁, after, t₂, left, hk, hrefuses, hconnect, ht₂⟩ | ⟨t₁, hall⟩
  · obtain ⟨w', hdoes, hrounds⟩ := establish_of_refuses_lt hbound hrefuses hk hconnect w
    exact ⟨_, w', _, _, .connects hk, ⟨hdoes, rfl, ht₂, .delivered rfl⟩, hrounds⟩
  · obtain ⟨w', hdoes, htorn, hrounds⟩ := establish_of_refuses hbound hall w
    exact ⟨_, w', _, _, .unreachable, ⟨hdoes, rfl, hall.answering h, .exhausted rfl htorn⟩, hrounds⟩

variable {s : Sender σ} (hpolicy : s.policy.maxAttempts = some m) (h : Answering s.transport)
  (hidle : s.state = .connecting ∨ s.state = .connected)

omit hbound in
include hpolicy h hidle in
theorem ready_bounded (w : Wait) :
    ∃ acts w' answer s', Readies (max m 1) (decide (s.state = .connected)) acts answer ∧
      Leads s.policy (max m 1) w s.transport acts w' answer s' ∧ ∀ rounds, max m 1 ≤ rounds →
        s.ready .forever rounds w = some (.returned w' answer s') := by
  unfold ready
  obtain ⟨transport, policy, state⟩ := s
  rcases hidle with hstate | hstate
  · cases hstate
    exact establish_bounded hpolicy h w
  · cases hstate
    exact ⟨[], w, .ok (), _, .linked, ⟨.nil _ _, rfl, h, .delivered rfl⟩, fun _ _ => rfl⟩

omit hbound in
theorem complete_confirmAll_iff {batch : Batch} {result : Commit} :
    (batch.confirmAll result.confirmed).complete = true ↔ result.Verifies batch.pending :=
  Batch.complete_confirmAll_iff.trans List.forall_mem_map

-- By induction on the commits that are left after this one.
omit hbound in
include hpolicy h hidle in
theorem deliver_bounded {left commits : Nat} (hleft : max m 1 = commits + left + 1) (w : Wait)
    (batch : Batch) :
    ∃ acts w' answer s', Delivers (max m 1) (decide (s.state = .connected)) commits acts answer ∧
      Leads s.policy (max m 1) w s.transport acts w' answer s' ∧
      ∀ connectRounds rounds, max m 1 ≤ connectRounds → left < rounds →
        s.deliver .forever connectRounds rounds commits w batch =
          some (.returned w' answer s') := by
  induction left using Nat.strongRecOn generalizing commits s w batch with
  | _ left ih =>
  obtain ⟨acts, w₁, answer, s₁, hready, hleads, hrounds⟩ := ready_bounded hpolicy h hidle w
  have hpolicy₁ : s₁.policy.maxAttempts = some m := hleads.policy_eq ▸ hpolicy
  cases answer with
  | error fault =>
    refine ⟨acts, w₁, _, s₁, .unreachable hready, hleads, fun connectRounds rounds hle hlt => ?_⟩
    obtain ⟨r, rfl⟩ : ∃ r, rounds = r + 1 := ⟨rounds - 1, by omega⟩
    exact deliver_of_not_ready (hrounds connectRounds hle) r commits
  | ok u =>
    obtain ⟨after, result, t, rest, hcommit, ht⟩ := hleads.answering.commit batch.pending
    by_cases hall : result.Verifies batch.pending
    · have hdoes := hleads.does.append (.commit hcommit (.nil _ _))
      refine ⟨_, _, .ok (), { s₁ with transport := t, state := .connected },
        .verified hready hall, ⟨hdoes, hleads.policy_eq, ht, .delivered rfl⟩,
        fun connectRounds rounds hle hlt => ?_⟩
      obtain ⟨r, rfl⟩ : ∃ r, rounds = r + 1 := ⟨rounds - 1, by omega⟩
      exact deliver_verified (hrounds connectRounds hle) hcommit
        (complete_confirmAll_iff.2 hall) r commits
    · have hincomplete : (batch.confirmAll result.confirmed).complete = false :=
        Bool.eq_false_iff.2 (mt complete_confirmAll_iff.1 hall)
      cases left with
      | zero =>
        have hlast := RetryPolicy.exhausted_of_le hpolicy₁ (Nat.le_of_eq hleft)
        have hdoes := hleads.does.append (.commit hcommit (.tearDown (.nil _ _)))
        refine ⟨_, _, .error (.retriesExhausted (max m 1)), reset { s₁ with transport := t },
          .exhausts hready hall hleft.symm,
          ⟨hdoes, hleads.policy_eq, ht.tearDown, .exhausted rfl ⟨t, rfl⟩⟩,
          fun connectRounds rounds hle hlt => ?_⟩
        obtain ⟨r, rfl⟩ : ∃ r, rounds = r + 1 := ⟨rounds - 1, by omega⟩
        rw [hleft]
        exact deliver_exhausted (hrounds connectRounds hle) hcommit hincomplete hlast r
      | succ left =>
        have hmore : commits + 1 < max m 1 := by omega
        have hpause := RetryPolicy.not_exhausted_of_lt hpolicy₁ hmore
        obtain ⟨later, w', answer, s', hlater, hleads', hrounds'⟩ :=
          ih left (Nat.lt_succ_self left) (s := reset { s₁ with transport := t }) hpolicy₁
            ht.tearDown (.inl rfl) (show max m 1 = commits + 1 + left + 1 by omega)
            ⟨w₁.sleeps + 1, w₁.elapsed + after + s₁.policy.interval⟩
            (batch.confirmAll result.confirmed)
        have hdoes : Does s.policy.interval w s.transport
            (acts ++ .commit batch.pending result :: .tearDown :: .pause :: later) w'
            s'.transport := by
          refine hleads.does.append (.commit hcommit (.tearDown (.pause ?_)))
          rw [← hleads.policy_eq]
          exact hleads'.does
        refine ⟨_, w', answer, s', .retries hready hall hmore hlater,
          ⟨hdoes, hleads'.policy_eq.trans hleads.policy_eq, hleads'.answering, hleads'.ended⟩,
          fun connectRounds rounds hle hlt => ?_⟩
        obtain ⟨r, rfl⟩ : ∃ r, rounds = r + 1 := ⟨rounds - 1, by omega⟩
        rw [deliver_retries (hrounds connectRounds hle) hcommit hincomplete hpause]
        exact hrounds' connectRounds r hle (by omega)

end Bounded

theorem Ended.not_closed {n : Nat} {answer : Except Fault Unit} {s : Sender σ}
    (h : Ended n answer s) : s.state ≠ .closed := by
  cases h with
  | delivered hstate => exact hstate ▸ nofun
  | exhausted hstate => exact hstate ▸ nofun

/-- One send that had something to deliver and `n` attempts to do so: what was done, what that took
and how it ended. Another send is possible in any case. -/
structure Sent (n : Nat) (s : Sender σ) (acts : List Act) (w : Wait) (answer : Except Fault Unit)
    (s' : Sender σ) : Prop where
  delivers : Delivers n (decide (s.recover.state = .connected)) 0 acts answer
  does : Does s.policy.interval {} s.recover.transport acts w s'.transport
  commits_le : acts.countP Act.isCommit ≤ n
  sparse : Sparse n acts
  sleeps_eq : w.sleeps = acts.countP Act.isPause
  fails_eq : acts.countP Act.fails = w.sleeps + if answer.isOk then 0 else 1
  ended : Ended n answer s'
  policy_eq : s'.policy = s.policy
  not_closed : s'.state ≠ .closed
  answering : Answering s'.transport

theorem recover_cases (s : Sender σ) :
    s.recover = s ∨ s.state = .sending ∧ s.recover = s.reset := by
  unfold recover
  split
  · next hs => exact .inr ⟨hs, rfl⟩
  · exact .inl rfl

theorem policy_recover (s : Sender σ) : s.recover.policy = s.policy := by
  rcases recover_cases s with heq | ⟨-, heq⟩ <;> rw [heq]
  rfl

theorem answering_recover {s : Sender σ} (h : Answering s.transport) :
    Answering s.recover.transport := by
  rcases recover_cases s with heq | ⟨-, heq⟩ <;> rw [heq]
  · exact h
  · exact h.tearDown

theorem idle_recover {s : Sender σ} (hopen : s.state ≠ .closed) :
    s.recover.state = .connecting ∨ s.recover.state = .connected := by
  unfold recover
  split
  · exact .inl rfl
  · next hs =>
    cases hstate : s.state with
    | connecting => exact .inl rfl
    | connected => exact .inr rfl
    | sending => exact absurd hstate hs
    | closed => exact absurd hstate hopen

theorem send_bounded {s : Sender σ} (hbound : s.policy.maxAttempts = some m)
    (hopen : s.state ≠ .closed) (h : Answering s.transport) {messages : List Bytes}
    (hsome : messages ≠ []) :
    ∃ acts w answer s', Sent (max m 1) s acts w answer s' ∧ ∀ rounds, max m 1 ≤ rounds →
      s.send rounds .forever messages = some (.returned w answer s') := by
  have hpolicy := s.policy_recover
  have hpos : 0 < max m 1 := by omega
  obtain ⟨left, hleft⟩ : ∃ left, max m 1 = 0 + left + 1 := ⟨max m 1 - 1, by omega⟩
  obtain ⟨acts, w, answer, s', hdelivers, hleads, hrounds⟩ :=
    deliver_bounded (hpolicy ▸ hbound) (answering_recover h) (idle_recover hopen) hleft {}
      (.ofMessages messages)
  have hsleeps : w.sleeps = acts.countP Act.isPause := hleads.does.sleeps_eq.trans (Nat.zero_add _)
  have hcommits := hdelivers.commits_le hpos
  rw [Nat.zero_add] at hcommits
  have hsparse : Sparse (max m 1) ([] ++ acts) := hdelivers.sparse hpos rfl rfl
  refine ⟨acts, w, answer, s',
    { delivers := hdelivers
      does := hpolicy ▸ hleads.does
      commits_le := hcommits
      sparse := hsparse
      sleeps_eq := hsleeps
      fails_eq := hsleeps ▸ hdelivers.fails_eq
      ended := hleads.ended
      policy_eq := hleads.policy_eq.trans hpolicy
      not_closed := hleads.ended.not_closed
      answering := hleads.answering }, fun rounds hle => ?_⟩
  unfold send
  rw [if_neg hopen, if_neg (mt List.isEmpty_iff.1 hsome)]
  exact hrounds rounds rounds hle (by omega)

/-- With a bound of `m` a sender makes `max m 1` attempts. If the transport refuses fewer connects,
it is connected after a pause for each of these; otherwise the sender gives up after that many. A
send makes that many commits at most, and that many connects between two, with pauses in between,
and ends well or gives up (`Sent`); with nothing to send, nothing is done but to drop a connection
that an interrupted commit has left behind. -/
theorem attempts_bounded (hbound : policy.maxAttempts = some m) :
    (∀ (t t₁ : σ) (k : Nat), Refuses k t t₁ →
      (k < max m 1 → ∀ after t₂ left, Transport.connect t₁ = .returns after true t₂ left →
        ∃ acts w, Does policy.interval {} t acts w t₂ ∧
          acts = redials k ++ [.connect true] ∧ acts.countP Act.isConnect = k + 1 ∧ w.sleeps = k ∧
          ∀ rounds, max m 1 ≤ rounds →
            connect rounds policy t = some (.returned w (.ok ()) ⟨t₂, policy, .connected⟩)) ∧
      (max m 1 ≤ k → ∃ acts w t', Does policy.interval {} t acts w t' ∧
          acts = redials (max m 1 - 1) ++ [.connect false, .tearDown] ∧
          acts.countP Act.isConnect = max m 1 ∧ w.sleeps = max m 1 - 1 ∧
          ∀ rounds, max m 1 ≤ rounds → connect rounds policy t =
            some (.returned w (.error (.retriesExhausted (max m 1))) ⟨t', policy, .connecting⟩))) ∧
    ∀ s : Sender σ, s.policy = policy → s.state ≠ .closed → Answering s.transport →
      (∀ rounds, s.send rounds .forever [] =
        some (.returned {} (.ok ()) (if s.state = .sending then s.reset else s))) ∧
      ∀ messages, messages ≠ [] → ∃ acts w answer s', Sent (max m 1) s acts w answer s' ∧
        ∀ rounds, max m 1 ≤ rounds →
          s.send rounds .forever messages = some (.returned w answer s') := by
  refine ⟨fun t t₁ k hrefuses => ⟨fun hk after t₂ left hconnect => ?_, fun hk => ?_⟩,
    fun s hpolicy hopen h => ⟨fun rounds => ?_,
      fun messages hsome => send_bounded (hpolicy ▸ hbound) hopen h hsome⟩⟩
  · obtain ⟨w, hdoes, hrounds⟩ := establish_of_refuses_lt hbound hrefuses hk hconnect {}
    have hsleeps : w.sleeps = k := by
      rw [hdoes.sleeps_eq]
      simp [Act.isPause]
    exact ⟨_, w, hdoes, rfl, by simp [List.countP_cons, Act.isConnect], hsleeps, hrounds⟩
  · obtain ⟨rest, rfl⟩ := Nat.exists_eq_add_of_le hk
    obtain ⟨t', hall, -⟩ := hrefuses.split
    obtain ⟨w, hdoes, -, hrounds⟩ := establish_of_refuses hbound hall {}
    have hsleeps : w.sleeps = max m 1 - 1 := by
      rw [hdoes.sleeps_eq]
      simp [Act.isPause]
    have hconnects :
        (redials (max m 1 - 1) ++ [Act.connect false, .tearDown]).countP Act.isConnect =
          max m 1 := by
      rw [List.countP_append, countP_redials]
      change (max m 1 - 1) * 1 + 1 = max m 1
      omega
    exact ⟨_, w, t', hdoes, rfl, hconnects, hsleeps, hrounds⟩
  · unfold send
    rw [if_neg hopen]
    rfl

end Sender

end Transports

/-- A memory that has no stalling commits to come answers every call. -/
theorem Memory.answering {m : Memory} (h : m.stallingCommits = 0) : Answering m := by
  refine ⟨fun m => m.stallingCommits = 0,
    ⟨fun m hm => ?_, fun m hm pending => ?_, fun m hm => hm⟩, h⟩
  · refine ⟨0, m.connect.1, m.connect.2, m.connect.2, rfl, ?_⟩
    unfold connect
    cases m.failingConnects <;> exact hm
  · refine ⟨0, (m.commit pending).1, (m.commit pending).2, (m.commit pending).2, ?_, ?_⟩
    · simp only [Transport.commit, hm]
      rfl
    · unfold commit
      split
      · cases m.failingCommits <;> exact hm
      · exact hm

namespace Sender

/-- Two attempts, at short intervals. -/
def twice : RetryPolicy := ⟨10, some 2⟩

/-- A sender whose commits fail, and whose connects do in between. -/
def luckless : Sender Memory where
  transport := { failingConnects := 1, failingCommits := 5 }
  policy := twice

theorem attempts_bounded_twice :
    (∃ w t, connect 2 twice ({ failingConnects := 1 } : Memory) =
      some (.returned w (.ok ()) ⟨t, twice, .connected⟩) ∧ w.sleeps = 1) ∧
    (∃ w t, connect 2 twice ({ failingConnects := 5 } : Memory) =
      some (.returned w (.error (.retriesExhausted 2)) ⟨t, twice, .connecting⟩) ∧ w.sleeps = 1) ∧
    ∃ acts w s', Sent 2 luckless acts w (.error (.retriesExhausted 2)) s' ∧
      luckless.send 2 .forever [[0x61]] =
        some (.returned w (.error (.retriesExhausted 2)) s') ∧ w.sleeps = 2 ∧ w.elapsed = 20 := by
  have hone : Refuses 1 ({ failingConnects := 1 } : Memory) { connects := 1 } := .once rfl (.none _)
  have hthree : Refuses 3 ({ failingConnects := 5 } : Memory)
      { failingConnects := 2, connects := 3 } := .once rfl (.once rfl (.once rfl (.none _)))
  have hbound : twice.maxAttempts = some 2 := rfl
  obtain ⟨hconnect, hsend⟩ := attempts_bounded (σ := Memory) hbound
  obtain ⟨-, w₁, -, -, -, hsleeps₁, hrounds₁⟩ := (hconnect _ _ 1 hone).1 (by decide) 0 _ _ rfl
  obtain ⟨-, w₂, t₂, -, -, -, hsleeps₂, hrounds₂⟩ := (hconnect _ _ 3 hthree).2 (by decide)
  obtain ⟨acts, w, answer, s', hsent, hrounds⟩ :=
    (hsend luckless rfl nofun (Memory.answering rfl)).2 [[0x61]] nofun
  have hrun : luckless.send 2 .forever [[0x61]] =
      some (.returned ⟨2, 20⟩ (.error (.retriesExhausted 2)) _) := rfl
  cases (hrounds 2 (by decide)).symm.trans hrun
  exact ⟨⟨w₁, _, hrounds₁ 2 (by decide), hsleeps₁⟩, ⟨w₂, t₂, hrounds₂ 2 (by decide), hsleeps₂⟩,
    acts, _, _, hsent, hrun, rfl, rfl⟩

end Sender

end EventRelay.Delivery
