import EventRelay.Delivery.Scripted
import EventRelay.Proofs.Delivery.Conduct
import EventRelay.Proofs.Delivery.Limited

/-!
# When a sender makes its connection anew

Between a commit and the next one a sender drops its connection and makes another one, or it does
nothing at all. What the first commit confirmed decides which of the two it is, whatever its answer
(`Mended`), and a commit whose caller went away counts as one that confirmed nothing. The state of
the sender says how far it is on the way from one commit to the next (`Mends`), so this holds after
every history (`renewed_history`).

So a commit may fail and its connection be used for the next one: it is enough that everything was
confirmed before it failed (`failure_overlooked`).
-/

namespace EventRelay.Delivery

def CallNote.isCommit : CallNote → Bool
  | .commit _ _ => true
  | _ => false

/-- Everything that a commit was offered is confirmed, as far as its caller learned of it. -/
def Covered (offered : List Nat) : Option Commit → Prop
  | some result => result.Covers offered
  | none => False

/-- The connection was dropped, and after that another one was made. -/
def Renews (calls : List CallNote) : Prop :=
  ∃ later earlier, calls = later ++ .connect (some true) :: earlier ∧ .tearDown ∈ earlier

/-- What happens between a commit and the next one. -/
structure Mended (offered : List Nat) (result : Option Commit) (between : List CallNote) :
    Prop where
  kept : Covered offered result → between = []
  renews : ¬ Covered offered result → Renews between

/-- What is said of the latest commit of a log and of the calls since. -/
def OfLatest (P : List Nat → Option Commit → List CallNote → Prop) (log : List CallNote) : Prop :=
  ∀ since offered result earlier, log = since ++ .commit offered result :: earlier →
    (∀ n ∈ since, n.isCommit = false) → P offered result since

/-- Before each commit but the first the connection is mended if that is needed. -/
def Renewed (log : List CallNote) : Prop :=
  ∀ later offered result before, log = later ++ .commit offered result :: before →
    OfLatest Mended before

/-! ## One more call -/

section Logs

variable {P Q : List Nat → Option Commit → List CallNote → Prop} {log : List CallNote}
  {n : CallNote} {offered : List Nat} {result : Option Commit}

theorem ofLatest_nil : OfLatest P [] := by
  intro since offered result earlier heq
  cases since <;> cases heq

theorem ofLatest_commit (h : P offered result []) : OfLatest P (.commit offered result :: log) := by
  intro since offered' result' earlier heq hsince
  cases since with
  | nil =>
    cases heq
    exact h
  | cons n since =>
    obtain rfl : CallNote.commit offered result = n := (List.cons.inj heq).1
    cases hsince _ List.mem_cons_self

theorem OfLatest.cons (h : OfLatest P log) (hn : n.isCommit = false)
    (hPQ : ∀ {offered result since}, P offered result since → Q offered result (n :: since)) :
    OfLatest Q (n :: log) := by
  intro since offered result earlier heq hsince
  cases since with
  | nil =>
    cases heq
    cases hn
  | cons m since =>
    obtain ⟨rfl, hlog⟩ := List.cons.inj heq
    exact hPQ (h since offered result earlier hlog fun m hm => hsince m (List.mem_cons_of_mem _ hm))

theorem renewed_nil : Renewed [] := by
  intro later offered result before heq
  cases later <;> cases heq

theorem Renewed.cons (h : Renewed log) (hn : n.isCommit = false) : Renewed (n :: log) := by
  intro later offered result before heq
  cases later with
  | nil =>
    cases heq
    cases hn
  | cons m later => exact h later offered result before (List.cons.inj heq).2

theorem Renewed.commit (h : Renewed log) (hmended : OfLatest Mended log) :
    Renewed (.commit offered result :: log) := by
  intro later offered' result' before heq
  cases later with
  | nil =>
    cases heq
    exact hmended
  | cons m later => exact h later offered' result' before (List.cons.inj heq).2

end Logs

/-! ## On the way to the next commit -/

/-- A commit left something to do, and the connection has been dropped. -/
structure Torn (offered : List Nat) (result : Option Commit) (since : List CallNote) : Prop where
  not_covered : ¬ Covered offered result
  torn : .tearDown ∈ since

theorem Torn.cons {offered : List Nat} {result : Option Commit} {since : List CallNote}
    (h : Torn offered result since) (n : CallNote) : Torn offered result (n :: since) :=
  ⟨h.not_covered, List.mem_cons_of_mem n h.torn⟩

theorem Torn.mended {offered : List Nat} {result : Option Commit} {since : List CallNote}
    (h : Torn offered result since) : Mended offered result (.connect (some true) :: since) :=
  ⟨fun hcovered => absurd hcovered h.not_covered, fun _ => ⟨[], since, rfl, h.torn⟩⟩

/-- How far a sender in some state is with mending its connection. -/
structure Mends (state : Sender.State) (log : List CallNote) : Prop where
  renewed : Renewed log
  mended : state = .connected → OfLatest Mended log
  torn : state = .connecting → OfLatest Torn log
  not_covered : state = .sending → OfLatest (fun offered result _ => ¬ Covered offered result) log

theorem Mends.of_conduct {state : Sender.State} {log : List CallNote} (h : Conduct state log) :
    Mends state log := by
  induction h with
  | start => exact ⟨renewed_nil, nofun, fun _ => ofLatest_nil, nofun⟩
  | connected _ ih =>
    exact ⟨ih.renewed.cons rfl, fun _ => (ih.torn rfl).cons rfl Torn.mended, nofun, nofun⟩
  | refused _ ih =>
    have htorn := ((ih.torn rfl).cons rfl fun h => h.cons (.connect (some false))).cons rfl
      fun h => h.cons .tearDown
    exact ⟨(ih.renewed.cons rfl).cons rfl, nofun, fun _ => htorn, nofun⟩
  | undecided _ ih =>
    have htorn := (ih.torn rfl).cons rfl fun h => h.cons (.connect none)
    exact ⟨ih.renewed.cons rfl, nofun, fun _ => htorn, nofun⟩
  | verified _ hall ih =>
    have hmended : Mended _ (some _) [] := ⟨fun _ => rfl, fun hnot => absurd hall hnot⟩
    exact ⟨ih.renewed.commit (ih.mended rfl), fun _ => ofLatest_commit hmended, nofun, nofun⟩
  | @unverified log offered result _ hnot ih =>
    have hcommit : OfLatest (fun offered result _ => ¬ Covered offered result)
        (.commit offered (some result) :: log) := ofLatest_commit hnot
    have htorn : OfLatest Torn (.tearDown :: .commit offered (some result) :: log) :=
      hcommit.cons rfl fun h => ⟨h, List.mem_cons_self⟩
    exact ⟨(ih.renewed.commit (ih.mended rfl)).cons rfl, nofun, fun _ => htorn, nofun⟩
  | interrupted _ ih =>
    exact ⟨ih.renewed.commit (ih.mended rfl), nofun, nofun, fun _ => ofLatest_commit id⟩
  | @recovered log _ ih =>
    have htorn : OfLatest Torn (.tearDown :: log) :=
      (ih.not_covered rfl).cons rfl fun h => ⟨h, List.mem_cons_self⟩
    exact ⟨ih.renewed.cons rfl, nofun, fun _ => htorn, nofun⟩
  | dropped _ ih => exact ⟨ih.renewed.cons rfl, nofun, nofun, nofun⟩
  | disconnected _ _ _ ih => exact ⟨(ih.renewed.cons rfl).cons rfl, nofun, nofun, nofun⟩

namespace Sender.Operation

variable {σ : Type} [Transport σ]

/-- Whatever is done to a sender, between a commit and the next one it drops its connection and
makes another one if the first left anything unconfirmed, and it makes no call at all if that
confirmed everything, whether it failed or not.

A log takes no part in the work. A run that never comes to its end is cut off by a transport that
falls silent after so many answers, and the same holds of its beginning. -/
theorem renewed_history (t : σ) (policy : RetryPolicy) (p : Patience) (ops : List Operation) :
    (∀ connectRounds rounds, history connectRounds rounds policy p ops t =
      (history connectRounds rounds policy p ops (⟨t, []⟩ : Recorded σ)).map fun y =>
        (y.1, y.2.map Recorded.inner)) ∧
    (∀ connectRounds rounds answers s,
      history connectRounds rounds policy p ops (⟨t, []⟩ : Recorded σ) = some (answers, s) →
      Renewed s.transport.log) ∧
    (.close ∉ ops → ∀ n, ∃ answers s,
      history (n + 1) (n + 1) policy p ops (⟨⟨t, n⟩, []⟩ : Recorded (Limited σ)) =
        some (answers, s) ∧
      Renewed s.transport.log) := by
  refine ⟨?_, ?_, ?_⟩
  · intro connectRounds rounds
    exact history_map connectRounds rounds policy p ops ⟨t, []⟩
  · intro connectRounds rounds answers s hrun
    exact (Mends.of_conduct (conduct_history hrun)).renewed
  · intro hops n
    have hlt : n < n + 1 := Nat.lt_succ_self n
    obtain ⟨y, hy⟩ := exists_history_limited policy p t hlt hlt hops
    rw [history_map (n + 1) (n + 1) policy p ops (⟨⟨t, n⟩, []⟩ : Recorded (Limited σ))] at hy
    obtain ⟨⟨answers, s⟩, hrun, -⟩ := Option.map_eq_some_iff.1 hy
    exact ⟨answers, s, hrun, (Mends.of_conduct (conduct_history hrun)).renewed⟩

/-- Two commits fail: the first halfway, the second when everything has been confirmed. -/
def failing : Scripted where
  commits := [⟨[1], true, false⟩, ⟨[0], true, false⟩]

def twoSends : List Operation := [.send .forever [[0x61], [0x62]], .send .forever [[0x63]]]

theorem renewed_history_failing :
    (∃ s : Sender (Recorded Scripted),
      history 1 2 {} .forever twoSends ⟨failing, []⟩ =
        some ([some (.ok ()), some (.ok ())], s) ∧
      Renewed s.transport.log ∧
      s.transport.log.reverse =
        [.connect (some true), .commit [0, 1] (some ⟨[1], false⟩), .tearDown,
          .connect (some true), .commit [0] (some ⟨[0], false⟩), .commit [0] (some ⟨[0], true⟩)]) ∧
    ∃ answers s,
      history 3 3 {} .forever twoSends (⟨⟨failing, 2⟩, []⟩ : Recorded (Limited Scripted)) =
        some (answers, s) ∧
      Renewed s.transport.log := by
  obtain ⟨hview, hrenewed, hcut⟩ := renewed_history failing {} .forever twoSends
  have hplain : history 1 2 {} .forever twoSends failing =
      some ([some (.ok ()), some (.ok ())], ⟨{}, {}, .connected⟩) := rfl
  rw [hview] at hplain
  obtain ⟨⟨answers, s⟩, hrun, heq⟩ := Option.map_eq_some_iff.1 hplain
  obtain rfl : answers = [some (.ok ()), some (.ok ())] := (Prod.mk.inj heq).1
  refine ⟨⟨s, hrun, hrenewed 1 2 _ s hrun, ?_⟩, hcut (by simp [twoSends]) 2⟩
  cases hrun
  rfl

/-- Not every commit that fails is followed by a new connection before the next commit. -/
theorem failure_overlooked :
    ¬ ∀ (t : Scripted) (batches : List (List Bytes)) (rounds : Nat) (answers : List Answer)
        (s : Sender (Recorded Scripted)) (later : List CallNote) (offered' : List Nat)
        (result' : Option Commit) (between : List CallNote) (offered : List Nat) (result : Commit)
        (earlier : List CallNote),
      history rounds rounds {} .forever (batches.map (.send .forever)) ⟨t, []⟩ =
        some (answers, s) →
      s.transport.log = later ++ .commit offered' result' ::
        (between ++ .commit offered (some result) :: earlier) →
      (∀ n ∈ between, n.isCommit = false) → result.ok = false → Renews between := by
  intro h
  let t : Scripted := { commits := [⟨[0], true, false⟩] }
  obtain ⟨later, earlier, heq, -⟩ := h t [[[0x61]], [[0x62]]] 1 _ _ [] [0] (some ⟨[0], true⟩) [] [0]
    ⟨[0], false⟩ [.connect (some true)] rfl rfl nofun rfl
  cases later <;> cases heq

end Sender.Operation

end EventRelay.Delivery
