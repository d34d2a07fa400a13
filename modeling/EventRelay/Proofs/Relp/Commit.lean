import EventRelay.Relp.Connection
import EventRelay.Relp.Socket

/-!
# What a commit confirms

A commit writes a frame for each message that it is offered and then reads frames until all of them
are answered, the collector closes or reading fails (`settle_spec`). It confirms a message only by
the first answer to its number among the frames that it reads, and only if that answer reports
success (`answered_of_commit`). Nothing is asked of the collector: the frames that are read are
those that the bytes on the connection say, in order (`Yields.readAll_eq`).
-/

namespace EventRelay.Relp

/-- Whether a frame answers the command with a number. -/
def Frame.answers (x : Nat) (f : Frame) : Bool := f.command = answering && f.txnr = x

/-- Frames that a wire yields one after another, and the wire that is left. -/
inductive Yields {ν : Type} [Wire ν] : ν → List Frame → ν → Prop where
  | nil (w : ν) : Yields w [] w
  | cons {w w' w'' : ν} {f : Frame} {fs : List Frame} :
    Wire.read w = (.ok f, w') → Yields w' fs w'' → Yields w (f :: fs) w''

/-! ## Waiting for answers -/

/-- After the frames that were heard an answer is missing, and none of them closes the session. -/
def Waiting (awaited : Nat → Prop) (heard : List Frame) : Prop :=
  (∃ x, awaited x ∧ ∀ f ∈ heard, f.answers x = false) ∧ ∀ f ∈ heard, f.command ≠ closing

/-- How waiting for answers ends after the frames that were heard. -/
inductive Stops {ν : Type} [Wire ν] (awaited : Nat → Prop) (heard : List Frame) (w : ν) :
    Except Fault Unit → ν → Prop where
  | answered : (∀ x, awaited x → ∃ f ∈ heard, f.answers x = true) →
    (∀ f ∈ heard, f.command ≠ closing) → Stops awaited heard w (.ok ()) w
  | closed {before : List Frame} {f : Frame} : heard = before ++ [f] → f.command = closing →
    Stops awaited heard w (.error .serverClose) w
  | failed {e : Fault} {w' : ν} : Waiting awaited heard → Wire.read w = (.error e, w') →
    Stops awaited heard w (.error e) w'

/-- Frames are heard for as long as an answer is missing and none of them closes the session, until
reading fails. -/
structure Settles {ν : Type} [Wire ν] (awaited : Nat → Prop) (w : ν) (heard : List Frame)
    (result : Except Fault Unit) (w' : ν) : Prop where
  stops : ∃ w₁, Yields w heard w₁ ∧ Stops awaited heard w₁ result w'
  needed : ∀ before f after, heard = before ++ f :: after → Waiting awaited before

/-- The first answer to the number of a position, among the frames that were read, reports success.
-/
def AnsweredBy (inFlight : InFlight) (heard : List Frame) (i : Nat) : Prop :=
  ∃ x answer, inFlight[x]? = some i ∧ heard.find? (Frame.answers x) = some answer ∧
    answer.isSuccess = true

section Settle

variable {ν : Type} [Wire ν]

theorem Waiting.nil {awaited : Nat → Prop} (h : ∃ x, awaited x) : Waiting awaited [] :=
  ⟨h.imp fun _ hx => ⟨hx, nofun⟩, nofun⟩

theorem Waiting.cons {awaited awaited' : Nat → Prop} {heard : List Frame} {f : Frame}
    (hf : f.command ≠ closing) (hawaited : ∀ x, awaited' x → awaited x ∧ f.answers x = false)
    (h : Waiting awaited' heard) : Waiting awaited (f :: heard) := by
  obtain ⟨⟨x, hx, hmissing⟩, hopen⟩ := h
  refine ⟨⟨x, (hawaited x hx).1, ?_⟩, ?_⟩
  · rw [List.forall_mem_cons]
    exact ⟨(hawaited x hx).2, hmissing⟩
  · rw [List.forall_mem_cons]
    exact ⟨hf, hopen⟩

/-- One frame and then those after it, which need not answer what the frame answers. -/
theorem Settles.cons {awaited awaited' : Nat → Prop} {w w₁ w' : ν} {f : Frame}
    {heard : List Frame} {result : Except Fault Unit} (hread : Wire.read w = (.ok f, w₁))
    (hf : f.command ≠ closing) (hsome : ∃ x, awaited x)
    (hawaited : ∀ x, awaited' x ↔ awaited x ∧ f.answers x = false)
    (h : Settles awaited' w₁ heard result w') : Settles awaited w (f :: heard) result w' := by
  obtain ⟨⟨w₂, hyields, hstops⟩, hneeded⟩ := h
  refine ⟨⟨w₂, .cons hread hyields, ?_⟩, ?_⟩
  · cases hstops with
    | answered hall hopen =>
      refine .answered (fun x hx => ?_) (List.forall_mem_cons.2 ⟨hf, hopen⟩)
      by_cases hanswers : f.answers x = true
      · exact ⟨f, List.mem_cons_self, hanswers⟩
      · obtain ⟨g, hg, hgx⟩ := hall x ((hawaited x).2 ⟨hx, by simpa using hanswers⟩)
        exact ⟨g, List.mem_cons_of_mem f hg, hgx⟩
    | @closed before g heq hclosing =>
      exact .closed (show f :: heard = f :: before ++ [g] by rw [heq, List.cons_append]) hclosing
    | failed hwaiting he => exact .failed (hwaiting.cons hf fun x => (hawaited x).1) he
  · intro before g after heq
    cases before with
    | nil => exact .nil hsome
    | cons b before =>
      rw [List.cons_append, List.cons.injEq] at heq
      obtain ⟨rfl, heq⟩ := heq
      exact (hneeded before g after heq).cons hf fun x => (hawaited x).1

theorem Settles.cons_passed {awaited : Nat → Prop} {w w₁ w' : ν} {f : Frame} {heard : List Frame}
    {result : Except Fault Unit} (hread : Wire.read w = (.ok f, w₁)) (hf : f.command ≠ closing)
    (hsome : ∃ x, awaited x) (hpassed : ∀ x, awaited x → f.answers x = false)
    (h : Settles awaited w₁ heard result w') : Settles awaited w (f :: heard) result w' :=
  h.cons hread hf hsome fun x => ⟨fun hx => ⟨hx, hpassed x hx⟩, And.left⟩

theorem answers_iff {x : Nat} {f : Frame} :
    f.answers x = true ↔ f.command = answering ∧ f.txnr = x := by
  simp [Frame.answers]

theorem answers_eq_false {f : Frame} (hf : f.command ≠ answering) (x : Nat) :
    f.answers x = false := by
  simp [Frame.answers, hf]

theorem exists_mem_of_not_isEmpty {inFlight : InFlight} (h : ¬ inFlight.isEmpty = true) :
    ∃ x, x ∈ inFlight := by
  rwa [Std.ExtTreeMap.isEmpty_iff, Std.ExtTreeMap.eq_empty_iff_forall_not_mem,
    Classical.not_forall_not] at h

theorem not_answeredBy_nil {inFlight : InFlight} {i : Nat} : ¬ AnsweredBy inFlight [] i := by
  rintro ⟨x, answer, -, hfind, -⟩
  cases hfind

/-- The answer to a number that is in flight is the first answer to that number. -/
theorem answeredBy_cons_answer {inFlight : InFlight} {heard : List Frame} {f : Frame}
    {position i : Nat} (hf : f.command = answering)
    (hposition : inFlight[f.txnr]? = some position) :
    AnsweredBy inFlight (f :: heard) i ↔
      (f.isSuccess = true ∧ i = position) ∨ AnsweredBy (inFlight.erase f.txnr) heard i := by
  constructor
  · rintro ⟨x, answer, hx, hfind, hsuccess⟩
    by_cases hfx : f.txnr = x
    · subst hfx
      rw [List.find?_cons_of_pos (answers_iff.2 ⟨hf, rfl⟩)] at hfind
      cases hfind
      exact .inl ⟨hsuccess, Option.some.inj (hx.symm.trans hposition)⟩
    · rw [List.find?_cons_of_neg fun h => hfx (answers_iff.1 h).2] at hfind
      refine .inr ⟨x, answer, ?_, hfind, hsuccess⟩
      rw [Std.ExtTreeMap.getElem?_erase, if_neg (by rwa [Nat.compare_eq_eq]), hx]
  · rintro (⟨hsuccess, rfl⟩ | ⟨x, answer, hx, hfind, hsuccess⟩)
    · exact ⟨f.txnr, f, hposition, List.find?_cons_of_pos (answers_iff.2 ⟨hf, rfl⟩), hsuccess⟩
    · rw [Std.ExtTreeMap.getElem?_erase] at hx
      split at hx
      · cases hx
      · next hne =>
        rw [Nat.compare_eq_eq] at hne
        refine ⟨x, answer, hx, ?_, hsuccess⟩
        rw [List.find?_cons_of_neg fun h => hne (answers_iff.1 h).2, hfind]

/-- A frame that answers nothing that is in flight is passed over. -/
theorem answeredBy_cons_passed {inFlight : InFlight} {heard : List Frame} {f : Frame} {i : Nat}
    (hpassed : ∀ x ∈ inFlight, f.answers x = false) :
    AnsweredBy inFlight (f :: heard) i ↔ AnsweredBy inFlight heard i := by
  refine exists_congr fun x => exists_congr fun answer => and_congr_right fun hx => ?_
  have hmem : x ∈ inFlight := Std.ExtTreeMap.mem_iff_isSome_getElem?.2 (by rw [hx, Option.isSome])
  rw [List.find?_cons_of_neg (by rw [hpassed x hmem]; exact Bool.false_ne_true)]

/-- Waiting goes on until all numbers are answered, the session is closed or reading fails; then
those positions are confirmed of whose numbers the first answer reports success. -/
theorem settle_spec {inFlight : InFlight} {confirmed confirmed' : List Nat} {w w' : ν}
    {result : Except Fault Unit} (h : settle inFlight confirmed w = (result, confirmed', w')) :
    ∃ heard, Settles (· ∈ inFlight) w heard result w' ∧
      ∀ i, i ∈ confirmed' ↔ i ∈ confirmed ∨ AnsweredBy inFlight heard i := by
  fun_induction settle inFlight confirmed w with
  | case1 inFlight confirmed w hempty =>
    cases h
    rw [Std.ExtTreeMap.isEmpty_iff] at hempty
    subst hempty
    refine ⟨[], ⟨⟨_, .nil _, .answered ?_ nofun⟩, by simp⟩, fun i => ?_⟩
    · intro x hx
      exact absurd hx Std.ExtTreeMap.not_mem_empty
    · rw [or_iff_left not_answeredBy_nil]
  | case2 inFlight confirmed w hsome e w₁ hread =>
    cases h
    have hwaiting := Waiting.nil (exists_mem_of_not_isEmpty hsome)
    refine ⟨[], ⟨⟨w, .nil w, .failed hwaiting hread⟩, by simp⟩, fun i => ?_⟩
    rw [or_iff_left not_answeredBy_nil]
  | case3 inFlight confirmed w hsome f w₁ hread _ hclosing =>
    cases h
    have hwaiting := Waiting.nil (exists_mem_of_not_isEmpty hsome)
    have hpassed : ∀ x ∈ inFlight, f.answers x = false :=
      fun x _ => answers_eq_false (by rw [hclosing]; decide) x
    refine ⟨[f], ⟨⟨_, .cons hread (.nil _), .closed (List.nil_append _).symm hclosing⟩, ?_⟩,
      fun i => ?_⟩
    · intro before g after heq
      obtain ⟨rfl, -⟩ : before = [] ∧ _ := by simpa [List.singleton_eq_append_iff] using heq
      exact hwaiting
    · rw [answeredBy_cons_passed hpassed, or_iff_left not_answeredBy_nil]
  | case4 inFlight confirmed w hsome f w₁ hread _ hopen hcommand position hposition ih =>
    obtain ⟨heard, hsettles, hconfirmed⟩ := ih h
    refine ⟨f :: heard,
      hsettles.cons hread hopen (exists_mem_of_not_isEmpty hsome) fun x => ?_, fun i => ?_⟩
    · simp [Std.ExtTreeMap.mem_erase, Frame.answers, hcommand, and_comm]
    · rw [hconfirmed, answeredBy_cons_answer hcommand hposition, ← or_assoc]
      split
      · next hsuccess => simp [hsuccess]
      · next hsuccess => simp [hsuccess]
  | case5 inFlight confirmed w hsome f w₁ hread _ hopen hcommand hnone ih =>
    obtain ⟨heard, hsettles, hconfirmed⟩ := ih h
    have hpassed : ∀ x ∈ inFlight, f.answers x = false := by
      intro x hx
      rw [← Bool.not_eq_true, answers_iff]
      rintro ⟨-, rfl⟩
      rw [Std.ExtTreeMap.mem_iff_isSome_getElem?, hnone] at hx
      cases hx
    refine ⟨f :: heard, hsettles.cons_passed hread hopen (exists_mem_of_not_isEmpty hsome) hpassed,
      fun i => ?_⟩
    rw [hconfirmed, answeredBy_cons_passed hpassed]
  | case6 inFlight confirmed w hsome f w₁ hread _ hopen hcommand ih =>
    obtain ⟨heard, hsettles, hconfirmed⟩ := ih h
    have hpassed : ∀ x ∈ inFlight, f.answers x = false := fun x _ => answers_eq_false hcommand x
    refine ⟨f :: heard, hsettles.cons_passed hread hopen (exists_mem_of_not_isEmpty hsome) hpassed,
      fun i => ?_⟩
    rw [hconfirmed, answeredBy_cons_passed hpassed]

/-- A position is confirmed by the first answer to its number only, and only if that reports
success. -/
theorem answeredBy_of_settle {inFlight : InFlight} {confirmed confirmed' : List Nat} {w w' : ν}
    {result : Except Fault Unit} (h : settle inFlight confirmed w = (result, confirmed', w')) :
    ∃ heard w₁, Yields w heard w₁ ∧ (w₁ = w' ∨ ∃ e, Wire.read w₁ = (.error e, w')) ∧
      ∀ i ∈ confirmed', i ∈ confirmed ∨ AnsweredBy inFlight heard i := by
  obtain ⟨heard, ⟨⟨w₁, hyields, hstops⟩, -⟩, hconfirmed⟩ := settle_spec h
  refine ⟨heard, w₁, hyields, ?_, fun i => (hconfirmed i).1⟩
  cases hstops with
  | answered => exact .inl rfl
  | closed => exact .inl rfl
  | @failed e _ _ hread => exact .inr ⟨e, hread⟩

end Settle

/-! ## Numbering -/

namespace Connection

/-- The frames that a commit writes. -/
def frames {ν : Type} (pending : List (Nat × Bytes)) (c : Connection ν) : List Frame :=
  (c.number pending).1.1

section Number

variable {ν : Type}

/-- Each frame carries one of the messages, in their order. -/
theorem map_frames (c : Connection ν) (pending : List (Nat × Bytes)) :
    (c.frames pending).map (fun f => (f.command, f.data)) =
      pending.map fun e => ("syslog", e.2) := by
  unfold frames
  induction pending generalizing c with
  | nil => rfl
  | cons e pending ih => simp only [number, List.map_cons, ih]

theorem number_wire (pending : List (Nat × Bytes)) (c : Connection ν) :
    (c.number pending).2.connected = c.connected ∧ (c.number pending).2.wire = c.wire := by
  induction pending generalizing c with
  | nil => exact ⟨rfl, rfl⟩
  | cons e pending ih => exact ih c.takeTxnr.2

/-- A number that is in flight for a position is that of a frame with the message there. -/
theorem exists_frame_of_inFlight {pending : List (Nat × Bytes)} {c : Connection ν} {x i : Nat}
    (h : (c.number pending).1.2[x]? = some i) :
    ∃ (k : Nat) (m : Bytes), pending[k]? = some (i, m) ∧
      (c.frames pending)[k]? = some ⟨x, "syslog", m⟩ := by
  unfold frames
  induction pending generalizing c with
  | nil => simp [number] at h
  | cons e pending ih =>
    obtain ⟨position, payload⟩ := e
    simp only [number, Std.ExtTreeMap.getElem?_insertIfNew] at h ⊢
    split at h
    · next heq =>
      obtain ⟨hx, -⟩ := heq
      rw [Nat.compare_eq_eq] at hx
      cases h
      exact ⟨0, payload, rfl, by rw [hx]; rfl⟩
    · obtain ⟨k, m, hk, hframe⟩ := ih h
      exact ⟨k + 1, m, hk, hframe⟩

end Number

/-- A step that may fail has failed or not, and has left something. -/
theorem error_or_ok {α : Type} (x : Except Fault Unit × α) :
    (∃ e a, x = (.error e, a)) ∨ ∃ a, x = (.ok (), a) := by
  obtain ⟨result, a⟩ := x
  cases result with
  | error e => exact .inl ⟨e, a, rfl⟩
  | ok u => exact .inr ⟨a, rfl⟩

section Commit

variable {ν : Type} [Wire ν] {pending : List (Nat × Bytes)} {c : Connection ν} {w : ν}

theorem commit_of_not_connected (hc : c.connected = false) :
    c.commit pending = (.error .notConnected, [], (c.number pending).2) := by
  simp [commit, write, (number_wire pending c).1, hc]

theorem commit_of_error {e : Fault} (hc : c.connected = true)
    (h : Wire.write (c.frames pending) c.wire = (.error e, w)) :
    c.commit pending = (.error e, [], { (c.number pending).2 with wire := w }) := by
  obtain ⟨hconnected, hwire⟩ := number_wire pending c
  unfold frames at h
  simp only [commit, write, hconnected, hwire, hc, if_true, h]

theorem commit_of_ok (hc : c.connected = true)
    (h : Wire.write (c.frames pending) c.wire = (.ok (), w)) :
    c.commit pending =
      let settled := settle (c.number pending).1.2 [] w
      (settled.1, settled.2.1, { (c.number pending).2 with wire := settled.2.2 }) := by
  obtain ⟨hconnected, hwire⟩ := number_wire pending c
  unfold frames at h
  simp only [commit, write, hconnected, hwire, hc, if_true, h]

/-- A commit that confirms anything has written its frames and then waited for the answers. -/
theorem settle_of_commit {c' : Connection ν} {result : Except Fault Unit} {confirmed : List Nat}
    (h : c.commit pending = (result, confirmed, c')) {i : Nat} (hi : i ∈ confirmed) :
    c.connected = true ∧ ∃ w, Wire.write (c.frames pending) c.wire = (.ok (), w) ∧
      settle (c.number pending).1.2 [] w = (result, confirmed, c'.wire) := by
  cases hc : c.connected with
  | false =>
    cases (commit_of_not_connected hc).symm.trans h
    cases hi
  | true =>
    obtain ⟨e, w, hwrite⟩ | ⟨w, hwrite⟩ := error_or_ok (Wire.write (c.frames pending) c.wire)
    · cases (commit_of_error hc hwrite).symm.trans h
      cases hi
    · cases (commit_of_ok hc hwrite).symm.trans h
      exact ⟨rfl, w, hwrite, rfl⟩

end Commit

end Connection

/-! ## Reading from a socket -/

section Sockets

variable {π : Type} [Peer π]

theorem readAll_of_ok {e : Ending} {s rest : Bytes} {f : Frame}
    (h : Frame.read e s = (.ok f, rest)) :
    Frame.readAll e s = (f :: (Frame.readAll e rest).1, (Frame.readAll e rest).2) := by
  rw [Frame.readAll]
  split
  · next h' => rw [h] at h'; cases h'
  · next h' =>
    rw [h] at h'
    cases h'
    rfl

theorem peer_read (s : Socket π) : (Wire.read s).2.peer = s.peer := rfl

theorem read_of_socket {s s' : Socket π} {result : Except Fault Frame}
    (h : Wire.read s = (result, s')) :
    Frame.read s.ending s.unread = (result, s'.unread) ∧ s' = { s with unread := s'.unread } := by
  have hresult : (Frame.read s.ending s.unread).1 = result := congrArg Prod.fst h
  obtain rfl : { s with unread := (Frame.read s.ending s.unread).2 } = s' := congrArg Prod.snd h
  exact ⟨Prod.ext hresult rfl, rfl⟩

/-- What a socket yields are the frames at the beginning of its bytes. -/
theorem Yields.readAll_eq {s s' : Socket π} {heard : List Frame} (h : Yields s heard s') :
    s' = { s with unread := s'.unread } ∧ Frame.readAll s.ending s.unread =
      (heard ++ (Frame.readAll s'.ending s'.unread).1, (Frame.readAll s'.ending s'.unread).2) := by
  induction h with
  | nil => exact ⟨rfl, rfl⟩
  | @cons s s₁ s₂ f fs hread _ ih =>
    obtain ⟨hframe, hs₁⟩ := read_of_socket hread
    obtain ⟨hs₂, hfs⟩ := ih
    rw [hs₁] at hs₂ hfs
    exact ⟨hs₂, by rw [readAll_of_ok hframe, hfs, List.cons_append]⟩

end Sockets

/-! ## Commits -/

theorem hear_of_write {π : Type} [Peer π] {frames : List Frame} {s s' : Socket π}
    (h : Wire.write frames s = (.ok (), s')) :
    ∃ arrival peer, Peer.hear (frames.flatMap Frame.encode) s.peer = (.ok arrival, peer) ∧
      s' = ⟨peer, s.unread ++ arrival.bytes, arrival.ending⟩ := by
  change s.write frames = _ at h
  unfold Socket.write at h
  dsimp only at h
  split at h
  · cases h
  · next arrival harrival =>
    cases h
    exact ⟨arrival, _, Prod.ext harrival rfl, rfl⟩

/-- How a commit confirms the message at a position: its frame was written on the connection among
those of the commit, which carry the pending messages in their order; the frames that were then
read on it are those that its bytes say, what was left unread and what the peer sent in return; and
the first of them that answers the number of the frame reports success. -/
structure Answered {π : Type} [Peer π] (i : Nat) (m : Bytes) (pending : List (Nat × Bytes))
    (before after : Connection (Socket π)) (x : Nat) (arrival : Arrival) (heard : List Frame) :
    Prop where
  connected : before.connected = true
  carried : (before.frames pending).map (fun f => (f.command, f.data)) =
    pending.map fun e => ("syslog", e.2)
  placed : ∃ k : Nat, pending[k]? = some (i, m) ∧
    (before.frames pending)[k]? = some ⟨x, "syslog", m⟩
  written : Peer.hear ((before.frames pending).flatMap Frame.encode) before.wire.peer =
    (.ok arrival, after.wire.peer)
  read : ∃ s,
    Yields ⟨after.wire.peer, before.wire.unread ++ arrival.bytes, arrival.ending⟩ heard s ∧
    (s = after.wire ∨ ∃ e, Wire.read s = (.error e, after.wire))
  decoded : heard <+: (Frame.readAll arrival.ending (before.wire.unread ++ arrival.bytes)).1
  answered : ∃ answer, heard.find? (Frame.answers x) = some answer ∧ answer.isSuccess = true

/-- Whatever the peer does, a commit confirms a message only if it is answered with success. -/
theorem answered_of_commit {π : Type} [Peer π] {pending : List (Nat × Bytes)}
    {c c' : Connection (Socket π)} {result : Except Fault Unit} {confirmed : List Nat}
    (h : c.commit pending = (result, confirmed, c')) {i : Nat} (hi : i ∈ confirmed) :
    ∃ m x arrival heard, Answered i m pending c c' x arrival heard := by
  obtain ⟨hconnected, w, hwrite, hsettle⟩ := Connection.settle_of_commit h hi
  obtain ⟨arrival, peer, hhear, rfl⟩ := hear_of_write hwrite
  obtain ⟨heard, s, hyields, hend, hconfirmed⟩ := answeredBy_of_settle hsettle
  rcases hconfirmed i hi with hi | ⟨x, answer, hx, hfind, hsuccess⟩
  · cases hi
  obtain ⟨k, m, hk, hframe⟩ := Connection.exists_frame_of_inFlight hx
  have hpeer : c'.wire.peer = peer := by
    have hs : s.peer = peer := by rw [hyields.readAll_eq.1]
    rcases hend with rfl | ⟨e, he⟩
    · exact hs
    · rw [← hs, ← peer_read s, he]
  refine ⟨m, x, arrival, heard, hconnected, c.map_frames pending, ⟨k, hk, hframe⟩, ?_,
    ⟨s, ?_, hend⟩, ?_, answer, hfind, hsuccess⟩
  · rw [hpeer, hhear]
  · rwa [hpeer]
  · exact ⟨_, (congrArg Prod.fst hyields.readAll_eq.2).symm⟩

end EventRelay.Relp
