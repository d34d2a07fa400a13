import EventRelay.Proofs.Ack.Lookup

/-!
# The two parts of the statuses agree

The positions of a query's answer say where an id stands among the entries. `WellFormed` says that
they say so of every entry and of nothing else; it holds of the empty answer and is kept by
`insert`, so it holds of every answer that a channel gives (`wellFormed_report`). Reading an id
then finds the status that was noted last (`get?_insert`), and an id stands where it was named first
(`toList_insert_of_not_mem`, `toList_insert_of_mem`).
-/

namespace EventRelay.Ack

namespace Statuses

/-- The positions tell where the entry of an id stands. -/
structure WellFormed (s : Statuses) : Prop where
  position : ∀ (id : Int) (p : Nat),
    s.positions[id]? = some p ↔ ∃ b : Bool, s.entries[p]? = some (id, b)

variable {s : Statuses}

theorem wellFormed_empty : WellFormed empty := by
  constructor
  intro id p
  simp [empty]

theorem WellFormed.insert (h : s.WellFormed) (id : Int) (b : Bool) :
    (s.insert id b).WellFormed := by
  constructor
  intro id' p'
  unfold Statuses.insert
  split
  · next p hp =>
    obtain ⟨old, hold⟩ := (h.position id p).1 hp
    have hlt : p < s.entries.size := (Array.getElem?_eq_some_iff.1 hold).1
    simp only [h.position id' p', Array.getElem?_setIfInBounds, hlt, if_true]
    by_cases hpp : p = p'
    · subst hpp
      simp [hold]
    · simp [hpp]
  · next hnone =>
    have hfresh : ∀ (q : Nat) (b' : Bool), s.entries[q]? ≠ some (id, b') := by
      intro q b' hq
      have := (h.position id q).2 ⟨b', hq⟩
      rw [hnone] at this
      cases this
    simp only [Table.getElem?_insert_eq, Array.getElem?_push]
    by_cases hid : id = id' <;> by_cases hp : p' = s.entries.size
    · subst hid hp; simp
    · subst hid
      simp only [if_true, Option.some.injEq, hp, if_false, Ne.symm hp, false_iff, not_exists]
      exact hfresh p'
    · subst hp
      simp [hid, h.position id']
    · simp [hid, hp, h.position id']

/-- An id has the status that was noted for it last. -/
theorem get?_insert (h : s.WellFormed) (id id' : Int) (b : Bool) :
    (s.insert id b).get? id' = if id = id' then some b else s.get? id' := by
  unfold Statuses.insert get?
  cases hp : s.positions[id]? with
  | some p =>
    obtain ⟨old, hold⟩ := (h.position id p).1 hp
    have hlt : p < s.entries.size := (Array.getElem?_eq_some_iff.1 hold).1
    by_cases hid : id = id'
    · subst hid
      simp [hp, hlt]
    · simp only [hid, if_false]
      split
      · next q hq =>
        obtain ⟨b', hb'⟩ := (h.position id' q).1 hq
        have hpq : p ≠ q := by
          rintro rfl
          rw [hold] at hb'
          cases hb'
          exact hid rfl
        rw [Array.getElem?_setIfInBounds_ne hpq]
      · rfl
  | none =>
    simp only [Table.getElem?_insert_eq]
    by_cases hid : id = id'
    · subst hid
      simp
    · simp only [hid, if_false]
      cases hq : s.positions[id']? with
      | some q =>
        obtain ⟨b', hb'⟩ := (h.position id' q).1 hq
        have hlt : q < s.entries.size := (Array.getElem?_eq_some_iff.1 hb').1
        simp only [Array.getElem?_push, if_neg (Nat.ne_of_lt hlt)]
      | none => rfl

@[simp] theorem get?_empty (id : Int) : empty.get? id = none := by simp [get?, empty]

/-! ### The order of the entries -/

theorem mem_positions_iff (h : s.WellFormed) (id : Int) :
    (∃ p : Nat, s.positions[id]? = some p) ↔ id ∈ s.toList.map Prod.fst := by
  constructor
  · rintro ⟨p, hp⟩
    obtain ⟨b, hb⟩ := (h.position id p).1 hp
    rw [← Array.getElem?_toList] at hb
    exact List.mem_map.2 ⟨(id, b), List.mem_of_getElem? hb, rfl⟩
  · intro hmem
    obtain ⟨⟨id', b⟩, he, rfl⟩ := List.mem_map.1 hmem
    obtain ⟨p, hp⟩ := List.getElem?_of_mem he
    refine ⟨p, (h.position id' p).2 ⟨b, ?_⟩⟩
    rw [← Array.getElem?_toList]
    exact hp

/-- An id that is named for the first time stands at the end. -/
theorem toList_insert_of_not_mem (h : s.WellFormed) {id : Int}
    (hid : id ∉ s.toList.map Prod.fst) (b : Bool) :
    (s.insert id b).toList = s.toList ++ [(id, b)] := by
  unfold insert
  split
  · next p hp => exact absurd ((mem_positions_iff h id).1 ⟨p, hp⟩) hid
  · exact Array.toList_push

/-- An id that is named again keeps its place. -/
theorem toList_insert_of_mem (h : s.WellFormed) {id : Int} (hid : id ∈ s.toList.map Prod.fst)
    (b : Bool) :
    (s.insert id b).toList = s.toList.map fun e => if e.1 = id then (id, b) else e := by
  obtain ⟨p, hp⟩ := (mem_positions_iff h id).2 hid
  obtain ⟨old, hold⟩ := (h.position id p).1 hp
  rw [← Array.getElem?_toList] at hold
  unfold insert
  rw [hp]
  apply List.ext_getElem?
  intro q
  simp only [toList, Array.toList_setIfInBounds, List.getElem?_map, List.getElem?_set]
  by_cases hq : p = q
  · subst hq
    have hlt : p < s.entries.toList.length := (List.getElem?_eq_some_iff.1 hold).1
    rw [if_pos rfl, if_pos hlt, hold]
    simp
  · rw [if_neg hq]
    cases he : s.entries.toList[q]? with
    | none => rfl
    | some e =>
      -- no other place holds the id
      have hne : e.1 ≠ id := by
        rintro rfl
        rw [Array.getElem?_toList] at he
        have hq' := (h.position e.1 q).2 ⟨e.2, he⟩
        rw [hp] at hq'
        exact hq (Option.some.inj hq')
      simp [hne]

end Statuses

namespace Channel

theorem wellFormed_report {ids : List Int} {found : Statuses} {c : Channel}
    (h : found.WellFormed) : (c.report ids found).1.WellFormed := by
  induction ids generalizing found c with
  | nil => exact h
  | cons named ids ih => cases named <;> exact ih (h.insert ..)

theorem status_forget {id id' : Nat} {c : Channel} (h : (c.forget id).2.status id' = true) :
    c.status id' = true := by
  unfold status at h ⊢
  rw [acks_forget] at h
  split at h
  · cases h
  · exact h

/-- An id that a query reports as acknowledged is named by it and acknowledged in the channel,
unless it was noted before and the query does not name it. -/
theorem status_of_report_true {ids : List Int} {found : Statuses} {c : Channel} {id : Nat}
    (hf : found.WellFormed) (h : (c.report ids found).1.get? id = some true) :
    (id : Int) ∉ ids ∧ found.get? id = some true ∨ (id : Int) ∈ ids ∧ c.status id = true := by
  induction ids generalizing found c with
  | nil => exact .inl ⟨List.not_mem_nil, h⟩
  | cons named ids ih =>
    cases named with
    | ofNat n =>
      rcases ih (hf.insert _ _) h with ⟨hmem, hget⟩ | ⟨hmem, hstatus⟩
      · rw [Statuses.get?_insert hf] at hget
        split at hget
        · next heq =>
          cases (Int.ofNat.inj heq : n = id)
          exact .inr ⟨List.mem_cons_self, Option.some.inj hget⟩
        · next hne => exact .inl ⟨by simp [hmem]; omega, hget⟩
      · exact .inr ⟨List.mem_cons_of_mem _ hmem, status_forget hstatus⟩
    | negSucc n =>
      rcases ih (hf.insert _ _) h with ⟨hmem, hget⟩ | ⟨hmem, hstatus⟩
      · rw [Statuses.get?_insert hf, if_neg (by omega)] at hget
        exact .inl ⟨by simp [hmem], hget⟩
      · exact .inr ⟨List.mem_cons_of_mem _ hmem, hstatus⟩

end Channel

end EventRelay.Ack
