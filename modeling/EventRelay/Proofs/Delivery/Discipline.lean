import EventRelay.Delivery.Scripted
import EventRelay.Proofs.Delivery.Conduct
import EventRelay.Proofs.Delivery.Limited

/-!
# How a sender treats its transport

Each call that a transport gets from its sender is permitted by the calls before it: a commit needs
a live connection, a connect one that is not open, a disconnect happens once, and what leaves the
connection unfit is followed by a tear-down at once. `Disciplined` says so of a log, which has the
latest call first, and so also of whatever part of a run has happened yet.

The rules hold for every transport and whenever callers go away, because the state of the sender
says what the latest calls were (`Orderly`). Whatever a sender does keeps that
(`Orderly.of_conduct`), so it holds after every history (`disciplined_history`), and a closed sender
makes no call at all.
-/

namespace EventRelay.Delivery

/-! ## Logs -/

namespace CallNote

/-- A call after which a connection is gone or new, or no longer fit for a commit: a commit whose
caller went away may have left half a message behind. -/
def breaks : CallNote → Bool
  | .connect ok => ok.isSome
  | .commit _ result => result.isNone
  | .disconnect _ => true
  | .tearDown => true

/-- A call after which the connection must be dropped. -/
def spoils : CallNote → Bool
  | .connect ok => ok = some false
  | .disconnect _ => true
  | _ => false

end CallNote

/-- There was a call, and no call of some kind since. -/
def Since (n : CallNote) (ends : CallNote → Bool) (log : List CallNote) : Prop :=
  ∃ later earlier, log = later ++ n :: earlier ∧ ∀ m ∈ later, ends m = false

/-- The latest connect that came to an end succeeded, and its connection is still fit for a commit.
-/
def Live (log : List CallNote) : Prop := Since (.connect (some true)) CallNote.breaks log

/-- A connect succeeded, and its connection has not been torn down. -/
def Open (log : List CallNote) : Prop := Since (.connect (some true)) (· = .tearDown) log

/-- The connection has to be dropped before anything else. -/
def Due (log : List CallNote) : Prop := ∃ n earlier, log = n :: earlier ∧ n.spoils = true

/-- The rules for one more call. -/
structure Permitted (log : List CallNote) (n : CallNote) : Prop where
  commit_live : ∀ offered result, n = .commit offered result → Live log
  connect_closed : ∀ ok, n = .connect ok → ¬ Open log
  disconnect_once : ∀ ok, n = .disconnect ok → ∀ ok', .disconnect ok' ∉ log
  tearDown_due : Due log → n = .tearDown

/-- Each call was permitted by the calls before it. -/
def Disciplined : List CallNote → Prop
  | [] => True
  | n :: log => Permitted log n ∧ Disciplined log

theorem since_cons {n x : CallNote} {ends : CallNote → Bool} {log : List CallNote} :
    Since n ends (x :: log) ↔ x = n ∨ ends x = false ∧ Since n ends log := by
  constructor
  · rintro ⟨later, earlier, hlog, hlater⟩
    rcases List.cons_eq_append_iff.1 hlog with ⟨rfl, heq⟩ | ⟨later, rfl, rfl⟩
    · cases heq
      exact .inl rfl
    · refine .inr ⟨hlater x List.mem_cons_self, later, earlier, rfl, ?_⟩
      intro m hm
      exact hlater m (List.mem_cons_of_mem _ hm)
  · rintro (rfl | ⟨hx, later, earlier, rfl, hlater⟩)
    · exact ⟨[], log, rfl, nofun⟩
    · exact ⟨x :: later, earlier, rfl, List.forall_mem_cons.2 ⟨hx, hlater⟩⟩

theorem not_open_nil : ¬ Open [] := by
  rintro ⟨later, earlier, h, -⟩
  cases later <;> cases h

theorem not_open_tearDown (log : List CallNote) : ¬ Open (.tearDown :: log) := by
  intro h
  rcases since_cons.1 h with h | ⟨h, -⟩ <;> cases h

theorem not_open_connect_none {log : List CallNote} (h : ¬ Open log) :
    ¬ Open (.connect none :: log) := by
  intro hopen
  rcases since_cons.1 hopen with heq | ⟨-, hopen⟩
  · cases heq
  · exact h hopen

theorem live_connect (log : List CallNote) : Live (.connect (some true) :: log) :=
  since_cons.2 (.inl rfl)

theorem Live.commit {log : List CallNote} (h : Live log) (offered : List Nat) (commit : Commit) :
    Live (.commit offered (some commit) :: log) :=
  since_cons.2 (.inr ⟨rfl, h⟩)

theorem not_due_cons {n : CallNote} {log : List CallNote} (h : n.spoils = false) :
    ¬ Due (n :: log) := by
  rintro ⟨m, earlier, heq, hm⟩
  cases heq
  rw [h] at hm
  cases hm

theorem permitted_tearDown (log : List CallNote) : Permitted log .tearDown :=
  ⟨nofun, nofun, nofun, fun _ => rfl⟩

theorem permitted_connect {log : List CallNote} (ok : Option Bool) (hdue : ¬ Due log)
    (hopen : ¬ Open log) : Permitted log (.connect ok) :=
  ⟨nofun, fun _ _ => hopen, nofun, fun h => absurd h hdue⟩

theorem permitted_commit {log : List CallNote} (offered : List Nat) (result : Option Commit)
    (hdue : ¬ Due log) (hlive : Live log) : Permitted log (.commit offered result) :=
  ⟨fun _ _ _ => hlive, nofun, nofun, fun h => absurd h hdue⟩

theorem permitted_disconnect {log : List CallNote} (ok : Option Bool) (hdue : ¬ Due log)
    (hnone : ∀ ok, .disconnect ok ∉ log) : Permitted log (.disconnect ok) :=
  ⟨nofun, nofun, fun _ _ => hnone, fun h => absurd h hdue⟩

/-! ## What the state of a sender says -/

/-- What a sender in some state has done to its transport. -/
structure Orderly (state : Sender.State) (log : List CallNote) : Prop where
  disciplined : Disciplined log
  settled : ¬ Due log
  not_open : state = .connecting → ¬ Open log
  live : state = .connected → Live log
  interrupted : state = .sending → ∃ offered earlier, log = .commit offered none :: earlier
  no_disconnect : state ≠ .closed → ∀ ok, .disconnect ok ∉ log

namespace Orderly

variable {state : Sender.State} {log : List CallNote}

theorem nil : Orderly .connecting [] :=
  ⟨trivial, nofun, fun _ => not_open_nil, nofun, nofun, fun _ _ => List.not_mem_nil⟩

theorem tearDown (h : Disciplined log) (hnone : ∀ ok, .disconnect ok ∉ log) :
    Orderly .connecting (.tearDown :: log) where
  disciplined := ⟨permitted_tearDown log, h⟩
  settled := not_due_cons rfl
  not_open _ := not_open_tearDown log
  live := nofun
  interrupted := nofun
  no_disconnect _ ok hmem := by
    rcases List.mem_cons.1 hmem with heq | hmem
    · cases heq
    · exact hnone ok hmem

theorem closed (h : Disciplined log) : Orderly .closed (.tearDown :: log) :=
  ⟨⟨permitted_tearDown log, h⟩, not_due_cons rfl, nofun, nofun, nofun, fun hne => absurd rfl hne⟩

theorem disconnect (h : Orderly state log) (hs : state ≠ .closed) (ok : Option Bool) :
    Disciplined (.disconnect ok :: log) :=
  ⟨permitted_disconnect ok h.settled (h.no_disconnect hs), h.disciplined⟩

theorem not_disconnect_cons {n : CallNote} (hn : ∀ ok, n ≠ .disconnect ok)
    (h : ∀ ok, .disconnect ok ∉ log) (ok : Option Bool) : .disconnect ok ∉ n :: log := by
  intro hmem
  rcases List.mem_cons.1 hmem with heq | hmem
  · exact hn ok heq.symm
  · exact h ok hmem

section Connecting

variable (h : Orderly .connecting log)
include h

theorem connect_ok : Orderly .connected (.connect (some true) :: log) where
  disciplined := ⟨permitted_connect _ h.settled (h.not_open rfl), h.disciplined⟩
  settled := not_due_cons rfl
  not_open := nofun
  live _ := live_connect log
  interrupted := nofun
  no_disconnect _ := not_disconnect_cons nofun (h.no_disconnect nofun)

theorem connect_failed : Orderly .connecting (.tearDown :: .connect (some false) :: log) :=
  tearDown ⟨permitted_connect _ h.settled (h.not_open rfl), h.disciplined⟩
    (not_disconnect_cons nofun (h.no_disconnect nofun))

theorem connect_interrupted : Orderly .connecting (.connect none :: log) where
  disciplined := ⟨permitted_connect _ h.settled (h.not_open rfl), h.disciplined⟩
  settled := not_due_cons rfl
  not_open _ := not_open_connect_none (h.not_open rfl)
  live := nofun
  interrupted := nofun
  no_disconnect _ := not_disconnect_cons nofun (h.no_disconnect nofun)

end Connecting

section Connected

variable (h : Orderly .connected log)
include h

theorem commit_done (offered : List Nat) (commit : Commit) :
    Orderly .connected (.commit offered (some commit) :: log) where
  disciplined := ⟨permitted_commit _ _ h.settled (h.live rfl), h.disciplined⟩
  settled := not_due_cons rfl
  not_open := nofun
  live _ := (h.live rfl).commit offered commit
  interrupted := nofun
  no_disconnect _ := not_disconnect_cons nofun (h.no_disconnect nofun)

theorem commit_interrupted (offered : List Nat) :
    Orderly .sending (.commit offered none :: log) where
  disciplined := ⟨permitted_commit _ _ h.settled (h.live rfl), h.disciplined⟩
  settled := not_due_cons rfl
  not_open := nofun
  live := nofun
  interrupted _ := ⟨offered, log, rfl⟩
  no_disconnect _ := not_disconnect_cons nofun (h.no_disconnect nofun)

end Connected

theorem of_conduct (h : Conduct state log) : Orderly state log := by
  induction h with
  | start => exact nil
  | connected _ ih => exact ih.connect_ok
  | refused _ ih => exact ih.connect_failed
  | undecided _ ih => exact ih.connect_interrupted
  | verified _ _ ih => exact ih.commit_done ..
  | @unverified log offered result _ _ ih =>
    have hdone : Orderly .connected (.commit offered (some result) :: log) :=
      ih.commit_done offered result
    exact tearDown hdone.disciplined (hdone.no_disconnect nofun)
  | interrupted _ ih => exact ih.commit_interrupted _
  | recovered _ ih => exact tearDown ih.disciplined (ih.no_disconnect nofun)
  | dropped _ ih => exact closed ih.disciplined
  | disconnected _ hclosed _ ih => exact closed (ih.disconnect hclosed _)

end Orderly

namespace Sender

variable {σ : Type} [Transport σ]

/-- A close that never comes to an end hangs in its disconnect. -/
theorem disciplined_close_hangs {s s' : Sender (Recorded σ)}
    (h : Orderly s.state s.transport.log) (hx : s.close = .abandoned s') :
    s'.transport.log = .disconnect none :: s.transport.log ∧ Disciplined s'.transport.log := by
  unfold close at hx
  split at hx
  · cases hx
  · cases hx
  · next hclosed _ =>
    obtain ⟨w', ok, t, hawait, hlog⟩ | ⟨t, hawait, hlog⟩ :=
      Recorded.await_disconnect .forever {} s.transport
    all_goals rw [hawait] at hx
    · cases hx
    · cases hx
      have hdisciplined : Disciplined t.log := hlog ▸ h.disconnect hclosed none
      exact ⟨hlog, hdisciplined⟩

/-! ## Histories -/

namespace Operation

theorem not_closed_runAll {s s' : Sender (Recorded σ)} {rounds : Nat} {answers : List Answer}
    {ops : List Operation} (h : Conduct s.state s.transport.log) (hs : s.state ≠ .closed)
    (hops : .close ∉ ops) (hrun : runAll rounds ops s = some (answers, s')) :
    s'.state ≠ .closed := by
  induction ops generalizing s answers with
  | nil =>
    cases hrun
    exact hs
  | cons op ops ih =>
    simp only [runAll] at hrun
    split at hrun
    · cases hrun
    · next x hx =>
      obtain ⟨⟨later, s₁⟩, hlater, heq⟩ := Option.map_eq_some_iff.1 hrun
      cases heq
      cases op with
      | close => exact absurd List.mem_cons_self hops
      | send p messages =>
        obtain ⟨hconduct, hstate⟩ := conduct_send h hs hx
        exact ih hconduct hstate (fun hmem => hops (List.mem_cons_of_mem _ hmem)) hlater

section Closed

variable {s : Sender σ} (hs : s.state = .closed)
include hs

theorem run_of_closed (rounds : Nat) (op : Operation) :
    ∃ x, op.run rounds s = some x ∧ x.state = s ∧ answer? x = op.whenClosed := by
  cases op with
  | send p messages => exact ⟨_, if_pos hs, rfl, rfl⟩
  | close =>
    have hclose : s.close = .returned {} () s := by
      unfold Sender.close
      rw [hs]
    refine ⟨.returned {} (.ok ()) s, ?_, rfl, rfl⟩
    simp only [run, hclose]

theorem runAll_of_closed (rounds : Nat) (ops : List Operation) :
    runAll rounds ops s = some (ops.map whenClosed, s) := by
  induction ops with
  | nil => rfl
  | cons op ops ih =>
    obtain ⟨x, hx, hstate, hanswer⟩ := run_of_closed hs rounds op
    simp only [runAll, hx, hstate, ih, hanswer, Option.map_some, List.map_cons]

end Closed

theorem runAll_append (rounds : Nat) (ops ops' : List Operation) (s : Sender σ) :
    runAll rounds (ops ++ ops') s = (runAll rounds ops s).bind fun y =>
      (runAll rounds ops' y.2).map fun z => (y.1 ++ z.1, z.2) := by
  induction ops generalizing s with
  | nil => simp [runAll]
  | cons op ops ih =>
    simp only [List.cons_append, runAll]
    cases op.run rounds s with
    | none => rfl
    | some x => simp [ih, Option.map_bind, Option.bind_map, Function.comp_def]

theorem closed_of_runAll_close {s s' : Sender (Recorded σ)} {rounds : Nat} {ops : List Operation}
    {answers : List Answer} (h : Conduct s.state s.transport.log)
    (hrun : runAll rounds (ops ++ [.close]) s = some (answers, s')) : s'.state = .closed := by
  rw [runAll_append] at hrun
  obtain ⟨⟨before, s₁⟩, hbefore, hrun⟩ := Option.bind_eq_some_iff.1 hrun
  simp only [runAll, run] at hrun
  cases hclose : s₁.close with
  | abandoned s₂ => simp [hclose] at hrun
  | returned w u s₂ =>
    simp only [hclose, Option.map_some, Outcome.state, Option.some.injEq, Prod.mk.injEq] at hrun
    obtain ⟨-, rfl⟩ := hrun
    exact (conduct_close (conduct_runAll h hbefore) hclose).2

/-! ## The rules hold -/

section History

variable {t : σ} {connectRounds rounds : Nat} {policy : RetryPolicy} {p : Patience}
  {ops before after : List Operation} {answers : List Answer} {s : Sender (Recorded σ)}

/-- What the state says of the log after a history, and only a close leads to the last state. -/
theorem orderly_of_history
    (h : history connectRounds rounds policy p ops ⟨t, []⟩ = some (answers, s)) :
    Orderly s.state s.transport.log ∧ (.close ∉ ops → s.state ≠ .closed) := by
  obtain ⟨x, hconnect, hrun⟩ := Option.bind_eq_some_iff.1 h
  have hkept : Kept x := kept_establish .start rfl hconnect
  exact ⟨.of_conduct (conduct_runAll hkept.conduct hrun),
    fun hops => not_closed_runAll hkept.conduct hkept.not_closed hops hrun⟩

/-- A history in which the sender is closed is at its end with the close. -/
theorem closed_of_history
    (h : history connectRounds rounds policy p (before ++ .close :: after) ⟨t, []⟩ =
      some (answers, s)) :
    ∃ answers', history connectRounds rounds policy p (before ++ [.close]) ⟨t, []⟩ =
        some (answers', s) ∧
      s.state = .closed ∧ answers = answers' ++ after.map whenClosed := by
  obtain ⟨x, hconnect, hrun⟩ := Option.bind_eq_some_iff.1 h
  have hkept : Kept x := kept_establish .start rfl hconnect
  rw [List.append_cons, runAll_append] at hrun
  obtain ⟨⟨answers', s'⟩, hbefore, hrun⟩ := Option.bind_eq_some_iff.1 hrun
  have hclosed : s'.state = .closed := closed_of_runAll_close hkept.conduct hbefore
  simp only [runAll_of_closed hclosed, Option.map_some, Option.some.injEq, Prod.mk.injEq] at hrun
  obtain ⟨rfl, rfl⟩ := hrun
  exact ⟨answers', Option.bind_eq_some_iff.2 ⟨x, hconnect, hbefore⟩, hclosed, rfl⟩

end History

/-- Every run of a sender over a transport is the view of one with a log, and that log is
disciplined. It ends with a live connection if the sender says that it is connected, and with an
interrupted commit if it says that it is sending. Only a close disconnects, and when it has come to
its end the transport is never called again and every send answers that the sender is closed. A
close that never comes to its end hangs in its disconnect.

Nothing is assumed of the transport. A run that never comes to its end is cut off by a transport
that falls silent after so many answers, and the same holds of its beginning. -/
theorem disciplined_history (t : σ) (policy : RetryPolicy) (p : Patience) (ops : List Operation) :
    (∀ (connectRounds rounds : Nat) (answers : List Answer) (s' : Sender σ),
      history connectRounds rounds policy p ops t = some (answers, s') →
      ∃ s₁ : Sender (Recorded σ),
        history connectRounds rounds policy p ops ⟨t, []⟩ = some (answers, s₁) ∧
        s₁.map Recorded.inner = s' ∧
        Disciplined s₁.transport.log ∧ ¬ Due s₁.transport.log ∧
        (s'.state = .connected → Live s₁.transport.log) ∧
        (s'.state = .sending →
          ∃ offered earlier, s₁.transport.log = .commit offered none :: earlier) ∧
        (.close ∉ ops → ∀ ok, .disconnect ok ∉ s₁.transport.log) ∧
        (∀ before after, ops = before ++ .close :: after →
          ∃ answers', history connectRounds rounds policy p (before ++ [.close]) ⟨t, []⟩ =
              some (answers', s₁) ∧
            s₁.state = .closed ∧ answers = answers' ++ after.map whenClosed) ∧
        ∀ s₂, s₁.close = .abandoned s₂ →
          s₂.transport.log = .disconnect none :: s₁.transport.log ∧
            Disciplined s₂.transport.log) ∧
    (.close ∉ ops → ∀ n, ∃ answers s,
      history (n + 1) (n + 1) policy p ops (⟨⟨t, n⟩, []⟩ : Recorded (Limited σ)) =
        some (answers, s) ∧
      Disciplined s.transport.log ∧ ¬ Due s.transport.log ∧
      ∀ ok, .disconnect ok ∉ s.transport.log) := by
  constructor
  · intro connectRounds rounds answers s' h
    have hview := history_map connectRounds rounds policy p ops (⟨t, []⟩ : Recorded σ)
    rw [h] at hview
    obtain ⟨⟨answers, s₁⟩, hrecorded, heq⟩ := Option.map_eq_some_iff.1 hview.symm
    cases heq
    obtain ⟨horderly, hopen⟩ := orderly_of_history hrecorded
    refine ⟨s₁, hrecorded, rfl, horderly.disciplined, horderly.settled, horderly.live,
      horderly.interrupted, ?_, ?_, fun s₂ => disciplined_close_hangs horderly⟩
    · intro hops
      exact horderly.no_disconnect (hopen hops)
    · rintro before after rfl
      exact closed_of_history hrecorded
  · intro hops n
    have hlt : n < n + 1 := Nat.lt_succ_self n
    obtain ⟨y, hy⟩ := exists_history_limited policy p t hlt hlt hops
    rw [history_map (n + 1) (n + 1) policy p ops (⟨⟨t, n⟩, []⟩ : Recorded (Limited σ))] at hy
    obtain ⟨⟨answers, s⟩, hrun, -⟩ := Option.map_eq_some_iff.1 hy
    obtain ⟨horderly, hopen⟩ := orderly_of_history hrun
    exact ⟨answers, s, hrun, horderly.disciplined, horderly.settled,
      horderly.no_disconnect (hopen hops)⟩

/-- A transport whose first connect fails and whose first commit stalls. -/
def halting : Scripted := ⟨[false], [⟨[], false, true⟩], false⟩

/-- The caller of the first send goes away, and the sender is closed before the last. -/
def impatient : List Operation :=
  [.send (.atMost 5) [[0x61]], .send .forever [[0x62]], .close, .send .forever [[0x63]]]

theorem disciplined_history_impatient :
    (∃ s₁ : Sender (Recorded Scripted),
      history 2 2 {} .forever impatient ⟨halting, []⟩ =
        some ([none, some (.ok ()), some (.ok ()), some (.error .closed)], s₁) ∧
      Disciplined s₁.transport.log ∧
      s₁.transport.log.reverse =
        [.connect (some false), .tearDown, .connect (some true), .commit [0] none, .tearDown,
          .connect (some true), .commit [0] (some ⟨[0], true⟩), .disconnect (some true),
          .tearDown]) ∧
    ∃ answers s,
      history 2 2 {} .forever [.send .forever [[0x61]]]
        (⟨⟨halting, 1⟩, []⟩ : Recorded (Limited Scripted)) = some (answers, s) ∧
      Disciplined s.transport.log ∧
      s.transport.log.reverse =
        [.connect (some false), .tearDown, .connect none, .connect none] := by
  constructor
  · have hplain : history 2 2 {} .forever impatient halting =
        some ([none, some (.ok ()), some (.ok ()), some (.error .closed)],
          ⟨⟨[], [], false⟩, {}, .closed⟩) := rfl
    obtain ⟨s₁, hrun, -, hlog, -⟩ :=
      (disciplined_history halting {} .forever impatient).1 2 2 _ _ hplain
    refine ⟨s₁, hrun, hlog, ?_⟩
    cases hrun
    rfl
  · obtain ⟨answers, s, hrun, hlog, -⟩ :=
      (disciplined_history halting {} .forever [.send .forever [[0x61]]]).2 (by simp) 1
    refine ⟨answers, s, hrun, hlog, ?_⟩
    cases hrun
    rfl

end Operation

end Sender

end EventRelay.Delivery
