import EventRelay.Proofs.Delivery.Memory
import EventRelay.Proofs.Service.Honesty
import EventRelay.Proofs.Text.Utf8

/-!
# What a service delivers

Over senders that keep messages in memory and never give up, every batch that gets as far as the
senders is answered with success, and the batches go around: each sender delivers the batches of its
turns, each message once and in the order of the events (`delivered_runAll`). `handed` is the list
of these batches; a request that fails before has no place in it.
-/

namespace EventRelay.Service

open Delivery

/-! ## The batches that are handed out -/

section Handed

variable {σ : Type}

/-- The messages of an operation that gets as far as the senders. -/
def Operation.batch? (s : Service σ) : Operation → Option (List Syslog.Message)
  | .sendEvents now caller body origin =>
    match readEvents now caller body with
    | .error _ => none
    | .ok (token, events) =>
      let named := caller.channel.bind Text.nonBlank?
      match (idsFor token named events.length s.registry).1 with
      | .error _ => none
      | .ok ids => some (s.messages now (named.getD defaultChannel) origin events ids)
  | _ => none

variable [Transport σ] {rounds : Nat} {s : Service σ} {op : Operation}

/-- The batches of a history that get as far as the senders, in their order, with the answers. -/
def handed (rounds : Nat) : List Operation → Service σ → List (List Syslog.Message × Answer)
  | [], _ => []
  | op :: ops, s =>
    match op.run rounds s with
    | none => []
    | some (a, s') => ((op.batch? s).map (·, a)).toList ++ handed rounds ops s'

theorem handed_cons {ops : List Operation} {a : Answer} {s' : Service σ}
    (h : op.run rounds s = some (a, s')) :
    handed rounds (op :: ops) s = ((op.batch? s).map (·, a)).toList ++ handed rounds ops s' := by
  rw [handed, h]

/-- What does not get as far as the senders leaves them alone. -/
theorem run_of_batch?_none (h : op.batch? s = none) (hop : op ≠ .closePool) :
    ∃ a registry, op.run rounds s = some (a, { s with registry }) := by
  cases op with
  | sendEvents now caller body origin =>
    simp only [Operation.batch?] at h
    simp only [Operation.run, sendEvents]
    cases hread : readEvents now caller body with
    | error f => exact ⟨_, s.registry, rfl⟩
    | ok x =>
      rw [hread] at h
      dsimp only at h ⊢
      cases hids : (idsFor x.1 (caller.channel.bind Text.nonBlank?) x.2.length s.registry).1 with
      | error e => exact ⟨_, _, rfl⟩
      | ok ids =>
        rw [hids] at h
        cases h
  | getAcks caller body =>
    obtain ⟨registry, hregistry⟩ : ∃ registry, (s.getAcks caller body).2 = { s with registry } := by
      rcases getAcks_cases caller body s with ⟨f, heq⟩ | ⟨t, c, query, heq⟩
      · exact ⟨s.registry, by rw [heq]⟩
      · exact ⟨_, by rw [heq]⟩
    simp only [Operation.run, hregistry]
    cases (s.getAcks caller body).1 with
    | error f => exact ⟨_, registry, rfl⟩
    | ok statuses => exact ⟨_, registry, rfl⟩
  | registry operation => exact ⟨_, _, rfl⟩
  | closePool => exact absurd rfl hop

theorem run_of_batch?_some {messages : List Syslog.Message} {w : Wait} {pool : Pool σ}
    (h : op.batch? s = some messages)
    (hsend : s.pool.send rounds .forever (lines messages) = some (.returned w (.ok ()) pool)) :
    ∃ receipt registry,
      op.run rounds s = some (.sent receipt, { s with pool, registry }) := by
  cases op with
  | sendEvents now caller body origin =>
    simp only [Operation.batch?] at h
    split at h
    · cases h
    · next token events hread =>
      split at h
      · cases h
      · next ids hids =>
        cases h
        let channel := caller.channel.bind Text.nonBlank?
        refine ⟨⟨ids⟩, acknowledge token (channel.getD defaultChannel) ids
          (idsFor token channel events.length s.registry).2, ?_⟩
        simp only [Operation.run, sendEvents, hread, hids, messages_of_registry, hsend,
          Option.map_some]
        rfl
  | getAcks caller body => cases h
  | registry operation => cases h
  | closePool => cases h

end Handed

/-! ## Who delivers them -/

/-- The share of one among so many that take turns, the first turn having some number. -/
def share (count k start : Nat) (batches : List (List String)) : List String :=
  ((batches.zipIdx start).filter fun b => b.2 % count = k).flatMap Prod.fst

theorem share_nil (count k start : Nat) : share count k start [] = [] := rfl

theorem share_cons (count k start : Nat) (batch : List String) (batches : List (List String)) :
    share count k start (batch :: batches) =
      (if start % count = k then batch else []) ++ share count k (start + 1) batches := by
  unfold share
  rw [List.zipIdx_cons, List.filter_cons]
  by_cases hk : start % count = k
  · simp [hk]
  · simp [hk]

/-- The lines of the batches that are handed out. -/
def handedLines {σ : Type} [Transport σ] (rounds : Nat) (ops : List Operation) (s : Service σ) :
    List (List String) :=
  (handed rounds ops s).map fun b => b.1.map Syslog.Message.line

theorem map_decodeLossy_lines (messages : List Syslog.Message) :
    (lines messages).map Text.Utf8.decodeLossy = messages.map Syslog.Message.line := by
  rw [lines, List.map_map]
  apply List.map_congr_left
  intro m _
  exact Text.Utf8.decodeLossy_encode m.line

variable {rounds : Nat} {s s' : Service Memory}

/-- A history has delivered what it handed out, and each sender its share. -/
structure Delivers (rounds : Nat) (ops : List Operation) (s s' : Service Memory) : Prop where
  usable : s'.pool.Usable rounds
  size_eq : s'.pool.size = s.pool.size
  next_eq : s'.pool.next = s.pool.next + (handed rounds ops s).length
  succeeds : ∀ b ∈ handed rounds ops s, ∃ receipt, b.2 = .sent receipt
  delivered? : ∀ k, s'.pool.delivered? k = (s.pool.delivered? k).map fun d =>
    d ++ share s.pool.size k s.pool.next (handedLines rounds ops s)

theorem delivers_runAll {ops : List Operation} (h : s.pool.Usable rounds)
    (hops : .closePool ∉ ops) :
    ∃ answers s', Operation.runAll rounds ops s = some (answers, s') ∧
      Delivers rounds ops s s' := by
  induction ops generalizing s with
  | nil =>
    refine ⟨[], s, rfl, h, rfl, rfl, nofun, ?_⟩
    intro k
    simp only [handedLines, handed, List.map_nil, share_nil, List.append_nil, Option.map_id']
  | cons op ops ih =>
    obtain ⟨hop, hops⟩ := not_or.1 (mt List.mem_cons.2 hops)
    cases hbatch : op.batch? s with
    | none =>
      obtain ⟨a, registry, hrun⟩ := run_of_batch?_none hbatch (Ne.symm hop)
      have hhanded : handed rounds (op :: ops) s = handed rounds ops { s with registry } := by
        rw [handed_cons hrun, hbatch]
        rfl
      -- it takes no number, and the senders are as before
      obtain ⟨answers, s', hs', hdelivers⟩ := ih (s := { s with registry }) h hops
      refine ⟨a :: answers, s', ?_, hdelivers.usable, hdelivers.size_eq, ?_, ?_, ?_⟩
      · rw [Operation.runAll_cons_of_run hrun, hs']
        rfl
      · rw [hhanded]
        exact hdelivers.next_eq
      · rw [hhanded]
        exact hdelivers.succeeds
      · rw [handedLines, hhanded]
        exact hdelivers.delivered?
    | some messages =>
      obtain ⟨w, pool, hsend, husable, hsize, hnext, hdelivered⟩ :=
        Pool.send_pool h (lines messages)
      obtain ⟨receipt, registry, hrun⟩ := run_of_batch?_some hbatch hsend
      have hhanded : handed rounds (op :: ops) s =
          (messages, .sent receipt) :: handed rounds ops { s with pool, registry } := by
        rw [handed_cons hrun, hbatch]
        rfl
      -- it takes the number that the pool has come to, and the rest is counted from the next
      obtain ⟨answers, s', hs', hdelivers⟩ := ih (s := { s with pool, registry }) husable hops
      refine ⟨.sent receipt :: answers, s', ?_, hdelivers.usable, hdelivers.size_eq.trans hsize,
        ?_, ?_, ?_⟩
      · rw [Operation.runAll_cons_of_run hrun, hs']
        rfl
      · rw [hhanded, hdelivers.next_eq, hnext, List.length_cons]
        omega
      · rw [hhanded]
        exact List.forall_mem_cons.2 ⟨⟨receipt, rfl⟩, hdelivers.succeeds⟩
      · intro k
        have hlines : handedLines rounds (op :: ops) s = messages.map Syslog.Message.line ::
            handedLines rounds ops { s with pool, registry } := by
          rw [handedLines, hhanded]
          rfl
        rw [hdelivers.delivered?, hlines, share_cons]
        simp only [hdelivered, map_decodeLossy_lines, Option.map_map, Function.comp_def,
          List.append_assoc, hsize, hnext]

/-- Each of some memories is connected, with its own policy, and becomes a sender. -/
def Connected (rounds : Nat) (connections : List (RetryPolicy × Memory))
    (senders : List (Sender Memory)) : Prop :=
  List.Forall₂ (fun c s => ∃ w, Sender.connect rounds c.1 c.2 = some (.returned w (.ok ()) s))
    connections senders

/-- A connection to an empty memory that never stalls and is tried again and again, with fewer
failures to come than there are rounds. -/
structure Patient (rounds : Nat) (c : RetryPolicy × Memory) : Prop where
  unbounded : c.1.maxAttempts = none
  prompt : c.2.stallingCommits = 0
  empty : c.2.delivered = #[]
  connects_lt : c.2.failingConnects < rounds
  commits_lt : c.2.failingCommits < rounds

theorem exists_connected {connections : List (RetryPolicy × Memory)}
    (h : ∀ c ∈ connections, Patient rounds c) :
    ∃ senders, Connected rounds connections senders ∧
      ∀ s ∈ senders, s.Usable rounds ∧ s.transport.delivered = #[] := by
  induction connections with
  | nil => exact ⟨[], .nil, nofun⟩
  | cons c connections ih =>
    obtain ⟨hc, hrest⟩ := List.forall_mem_cons.1 h
    obtain ⟨w, s, hs, husable, hdelivered⟩ := Sender.connect_unbounded hc.unbounded hc.prompt
      hc.connects_lt hc.commits_lt
    obtain ⟨senders, hsenders, hall⟩ := ih hrest
    exact ⟨s :: senders, .cons ⟨w, hs⟩ hsenders,
      List.forall_mem_cons.2 ⟨⟨husable, hdelivered.trans hc.empty⟩, hall⟩⟩

/-- Over memories that fail any number of times, connecting them comes to an end, and so does every
history without a close, given more rounds than there are failures. Each batch that gets as far as
the senders is answered with success. They are numbered in the order in which they get there, and
each sender has delivered the batches whose numbers are its own, one after another, and in each of
them the lines of the events, one after another. -/
theorem delivered_runAll {connections : List (RetryPolicy × Memory)} {ops : List Operation}
    (hnonempty : connections ≠ []) (hconnections : ∀ c ∈ connections, Patient rounds c)
    (hops : .closePool ∉ ops) :
    ∃ senders pool, Connected rounds connections senders ∧ Pool.ofSenders senders = .ok pool ∧
      ∀ s : Service Memory, s.pool = pool →
        ∃ answers s', Operation.runAll rounds ops s = some (answers, s') ∧
          s'.pool.next = (handed rounds ops s).length ∧
          (∀ b ∈ handed rounds ops s, ∃ receipt, b.2 = .sent receipt) ∧
          ∀ k < connections.length, s'.pool.delivered? k =
            some (share connections.length k 0 (handedLines rounds ops s)) := by
  obtain ⟨senders, hconnected, hsenders⟩ := exists_connected hconnections
  have hlength : senders.length = connections.length := (List.Forall₂.length_eq hconnected).symm
  have hpos : 0 < senders.toArray.size := by
    rw [List.size_toArray, hlength]
    exact List.length_pos_of_ne_nil hnonempty
  refine ⟨senders, ⟨senders.toArray, hpos, 0⟩, hconnected, dif_pos hpos, ?_⟩
  intro s hpool
  have husable : s.pool.Usable rounds := by
    rw [hpool]
    intro x hx
    exact (hsenders x (List.mem_toArray.1 hx)).1
  obtain ⟨answers, s', hrun, hdelivers⟩ := delivers_runAll husable hops
  refine ⟨answers, s', hrun, ?_, hdelivers.succeeds, ?_⟩
  · rw [hdelivers.next_eq, hpool, Nat.zero_add]
  · intro k hk
    have hfirst : s.pool.delivered? k = some [] := by
      have hlt : k < senders.length := hlength ▸ hk
      rw [hpool, Pool.delivered?, List.getElem?_toArray, List.getElem?_eq_getElem hlt,
        Option.map_some, (hsenders _ (List.getElem_mem hlt)).2]
    have hsize : s.pool.size = connections.length := by
      rw [hpool]
      exact List.size_toArray.trans hlength
    rw [hdelivers.delivered?, hfirst, hsize, hpool]
    rfl

/-- Two memories, the first with a connect that fails, the second with two such commits. -/
def twoMemories : List (RetryPolicy × Memory) :=
  [({}, { failingConnects := 1 }), ({}, { failingCommits := 2 })]

/-- One event, then a body without any, then two events, and one more after a sweep. -/
def fourRequests : List Operation :=
  let send (body : String) : Operation :=
    .sendEvents 0 client (Text.Utf8.encode body) {}
  [send "\x7b\"event\":\"d\"\x7d", send "", send "\x7b\"event\":\"e\"\x7d\x7b\"event\":\"f\"\x7d",
    .registry .sweep, send "\x7b\"event\":\"g\"\x7d"]

theorem delivered_runAll_twoMemories :
    ∃ senders pool, Connected 3 twoMemories senders ∧ Pool.ofSenders senders = .ok pool ∧
      ∃ answers s',
        Operation.runAll 3 fourRequests { registry := {}, pool } = some (answers, s') ∧
        s'.pool.next = 3 ∧
        s'.pool.delivered? 0 = some [expectedLine "0" "d", expectedLine "3" "g"] ∧
        s'.pool.delivered? 1 = some [expectedLine "1" "e", expectedLine "2" "f"] := by
  have hpatient : ∀ c ∈ twoMemories, Patient 3 c := by
    refine List.forall_mem_cons.2 ⟨⟨rfl, rfl, rfl, by decide, by decide⟩, ?_⟩
    exact List.forall_mem_singleton.2 ⟨rfl, rfl, rfl, by decide, by decide⟩
  have hclose : Operation.closePool ∉ fourRequests := by simp [fourRequests]
  obtain ⟨senders, pool, hconnected, hpool, h⟩ := delivered_runAll (by decide) hpatient hclose
  obtain ⟨answers, s', hrun, hnext, -, hdelivered⟩ := h { registry := {}, pool } rfl
  refine ⟨senders, pool, hconnected, hpool, answers, s', hrun, ?_⟩
  rw [hnext, hdelivered 0 (by decide), hdelivered 1 (by decide)]
  obtain _ | ⟨⟨w₀, h₀⟩, _ | ⟨⟨w₁, h₁⟩, _ | _⟩⟩ := hconnected
  cases h₀
  cases h₁
  cases hpool
  decide +kernel

end EventRelay.Service
