import EventRelay.Delivery.Batch

/-!
# What confirmations do to a batch

Confirming a position marks the entry there, if there is one, and leaves everything else as it is
(`getElem?_confirmAll`). What is pending are the entries without a mark, each once, with their
positions (`mem_pending`), so confirmations take off what is pending exactly what they name
(`pending_confirmAll`).
-/

namespace EventRelay.Delivery.Batch

theorem getElem?_confirm (b : Batch) (position i : Nat) :
    (b.confirm position).entries[i]? =
      b.entries[i]?.map fun e => if position = i then { e with confirmed := true } else e := by
  unfold confirm
  rw [List.getElem?_modify, Option.map_eq_map]

/-- Confirming positions confirms the entries there and changes nothing else. -/
theorem getElem?_confirmAll (b : Batch) (positions : List Nat) (i : Nat) :
    (b.confirmAll positions).entries[i]? =
      b.entries[i]?.map fun e => if i ∈ positions then { e with confirmed := true } else e := by
  unfold confirmAll
  induction positions generalizing b with
  | nil => simp
  | cons position positions ih =>
    rw [List.foldl_cons, ih, getElem?_confirm, Option.map_map]
    congr 1
    funext e
    by_cases hi : position = i
    · simp [hi]
    · simp [hi, Ne.symm hi]

theorem pendingFrom_cons (n : Nat) (e : Entry) (entries : List Entry) :
    pendingFrom n (e :: entries) =
      if e.confirmed then pendingFrom (n + 1) entries
      else (n, e.payload) :: pendingFrom (n + 1) entries :=
  rfl

theorem mem_pendingFrom {n i : Nat} {m : Bytes} {entries : List Entry} :
    (i, m) ∈ pendingFrom n entries ↔
      ∃ k, i = n + k ∧ entries[k]? = some { payload := m, confirmed := false } := by
  induction entries generalizing n with
  | nil => simp [pendingFrom]
  | cons e entries ih =>
    have htail : (∃ k, i = n + 1 + k ∧ entries[k]? = some ⟨m, false⟩) ↔
        ∃ k, i = n + (k + 1) ∧ (e :: entries)[k + 1]? = some ⟨m, false⟩ := by
      simp only [List.getElem?_cons_succ, Nat.add_assoc, Nat.add_comm 1]
    have hhead : (∃ k, i = n + k ∧ (e :: entries)[k]? = some ⟨m, false⟩) ↔
        i = n ∧ e = ⟨m, false⟩ ∨
          ∃ k, i = n + (k + 1) ∧ (e :: entries)[k + 1]? = some ⟨m, false⟩ := by
      constructor
      · rintro ⟨_ | k, hi, hk⟩
        · exact .inl ⟨hi, Option.some.inj hk⟩
        · exact .inr ⟨k, hi, hk⟩
      · rintro (⟨hi, rfl⟩ | ⟨k, hi, hk⟩)
        · exact ⟨0, hi, rfl⟩
        · exact ⟨k + 1, hi, hk⟩
    rw [hhead, ← htail, ← ih]
    obtain ⟨payload, confirmed⟩ := e
    cases confirmed <;> simp [pendingFrom_cons, @eq_comm _ m payload]

/-- What is pending are the entries that are not confirmed, at their positions. -/
theorem mem_pending {b : Batch} {i : Nat} {m : Bytes} :
    (i, m) ∈ b.pending ↔ b.entries[i]? = some { payload := m, confirmed := false } := by
  simp [pending, mem_pendingFrom]

theorem confirmed_of_complete {b : Batch} (h : b.complete = true) {i : Nat} {e : Entry}
    (hi : b.entries[i]? = some e) : e.confirmed = true :=
  List.all_eq_true.1 h e (List.mem_of_getElem? hi)

theorem getElem?_ofMessages (messages : List Bytes) (i : Nat) :
    (ofMessages messages).entries[i]? = messages[i]?.map fun m => { payload := m } := by
  simp [ofMessages]

/-! ## What is pending after confirmations -/

theorem pendingFrom_of_confirmed {positions : List Nat} {n : Nat} {entries entries' : List Entry}
    (h : ∀ i : Nat, entries'[i]? = entries[i]?.map fun e =>
      if n + i ∈ positions then { e with confirmed := true } else e) :
    pendingFrom n entries' = (pendingFrom n entries).filter fun e => e.1 ∉ positions := by
  induction entries generalizing n entries' with
  | nil =>
    have hlength : entries'.length ≤ 0 := List.getElem?_eq_none_iff.1 (h 0)
    obtain rfl := List.eq_nil_of_length_eq_zero (Nat.le_zero.1 hlength)
    rfl
  | cons e entries ih =>
    cases entries' with
    | nil => cases h 0
    | cons e' entries' =>
      have htail : pendingFrom (n + 1) entries' =
          (pendingFrom (n + 1) entries).filter fun e => e.1 ∉ positions := by
        apply ih
        intro i
        have hi := h (i + 1)
        rwa [List.getElem?_cons_succ, List.getElem?_cons_succ, ← Nat.add_assoc,
          Nat.add_right_comm] at hi
      have hhead : e' = if n ∈ positions then { e with confirmed := true } else e :=
        Option.some.inj (h 0)
      rw [pendingFrom_cons, pendingFrom_cons, htail, hhead]
      by_cases hn : n ∈ positions <;> cases hc : e.confirmed <;> simp [hn, hc]

/-- What is pending after confirmations is what was pending and is not confirmed. -/
theorem pending_confirmAll (b : Batch) (positions : List Nat) :
    (b.confirmAll positions).pending = b.pending.filter fun e => e.1 ∉ positions := by
  apply pendingFrom_of_confirmed
  intro i
  rw [getElem?_confirmAll, Nat.zero_add]

theorem pendingFrom_eq_nil_iff {n : Nat} {entries : List Entry} :
    pendingFrom n entries = [] ↔ entries.all Entry.confirmed = true := by
  induction entries generalizing n with
  | nil => exact ⟨fun _ => rfl, fun _ => rfl⟩
  | cons e entries ih =>
    rw [List.all_cons, pendingFrom_cons]
    cases e.confirmed
    · exact ⟨nofun, nofun⟩
    · exact ih

theorem complete_iff {b : Batch} : b.complete = true ↔ b.pending = [] :=
  pendingFrom_eq_nil_iff.symm

theorem complete_confirmAll_iff {b : Batch} {positions : List Nat} :
    (b.confirmAll positions).complete = true ↔ ∀ i ∈ b.pending.map Prod.fst, i ∈ positions := by
  rw [complete_iff, pending_confirmAll, List.filter_eq_nil_iff]
  simp

theorem pendingFrom_map (n : Nat) (messages : List Bytes) :
    pendingFrom n (messages.map fun m => { payload := m }) = (messages.zipIdx n).map Prod.swap := by
  induction messages generalizing n with
  | nil => rfl
  | cons m messages ih => exact congrArg ((n, m) :: ·) (ih (n + 1))

/-- Of a batch of which nothing is confirmed everything is pending. -/
theorem pending_ofMessages (messages : List Bytes) :
    (ofMessages messages).pending = messages.zipIdx.map Prod.swap :=
  pendingFrom_map 0 messages

theorem map_snd_pending_ofMessages (messages : List Bytes) :
    (ofMessages messages).pending.map Prod.snd = messages := by
  rw [pending_ofMessages, List.map_map]
  exact List.zipIdx_map_fst 0 messages

theorem pairwise_pendingFrom (n : Nat) (entries : List Entry) :
    (pendingFrom n entries).Pairwise fun e e' => e.1 ≠ e'.1 := by
  induction entries generalizing n with
  | nil => exact .nil
  | cons e entries ih =>
    rw [pendingFrom_cons]
    split
    · exact ih (n + 1)
    · apply List.Pairwise.cons _ (ih (n + 1))
      rintro ⟨i, m⟩ hmem
      obtain ⟨k, rfl, -⟩ := mem_pendingFrom.1 hmem
      change n ≠ n + 1 + k
      omega

theorem eq_of_getElem?_pending {b : Batch} {k k' i : Nat} {m m' : Bytes}
    (h : b.pending[k]? = some (i, m)) (h' : b.pending[k']? = some (i, m')) : k = k' := by
  have hnodup : (b.pending.map Prod.fst).Nodup := List.pairwise_map.2 (pairwise_pendingFrom 0 _)
  have hk : k < (b.pending.map Prod.fst).length := by
    rw [List.length_map]
    exact (List.getElem?_eq_some_iff.1 h).1
  rw [← List.getElem?_inj hk hnodup, List.getElem?_map, List.getElem?_map, h, h']
  rfl

theorem pending_confirm_all (b : Batch) : (b.confirmAll (b.pending.map Prod.fst)).pending = [] := by
  rw [pending_confirmAll, List.filter_eq_nil_iff]
  intro e he
  simpa using ⟨e.2, he⟩

theorem pending_confirm_dropLast {b : Batch} {init : List (Nat × Bytes)} {last : Nat × Bytes}
    (h : b.pending = init ++ [last]) :
    (b.confirmAll (b.pending.dropLast.map Prod.fst)).pending = [last] := by
  have hpairwise := pairwise_pendingFrom 0 b.entries
  rw [show pendingFrom 0 b.entries = init ++ [last] from h, List.pairwise_append] at hpairwise
  have hlast : last.1 ∉ init.map Prod.fst := by
    intro hmem
    obtain ⟨e, he, heq⟩ := List.mem_map.1 hmem
    exact hpairwise.2.2 e he last List.mem_cons_self heq
  rw [pending_confirmAll, h, List.dropLast_concat, List.filter_append]
  have hinit : (init.filter fun e => e.1 ∉ init.map Prod.fst) = [] := by
    rw [List.filter_eq_nil_iff]
    intro e he
    simpa using ⟨e.2, he⟩
  rw [hinit, List.nil_append]
  exact List.filter_cons_of_pos (decide_eq_true hlast)

end EventRelay.Delivery.Batch
