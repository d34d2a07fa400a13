import EventRelay.Proofs.Ack.Reporting
import EventRelay.Proofs.Json.Written
import Mathlib.Data.Finset.Card

/-!
# Statuses as a list and as an object

What a list of noted statuses comes to (`Records`) is kept by each insertion, so it holds of every
answer that is made of insertions (`records_ofList`). The answer is written as an object that names
each id once by its decimal text, and reading the object gives the list back, as it gives the status
of each id (`ofList_consistent`).
-/

namespace EventRelay.Ack.Statuses

open Text

variable {l : List (Int × Bool)} {s : Statuses} {id : Int} {b : Bool}

/-! ## What was noted -/

/-- The ids in the order of the entries. -/
def ids (s : Statuses) : List Int := s.toList.map Prod.fst

/-- The list notes the status for the id, and nothing for that id afterwards. -/
def NotedLast (l : List (Int × Bool)) (id : Int) (b : Bool) : Prop :=
  ∃ before after, l = before ++ (id, b) :: after ∧ id ∉ after.map Prod.fst

/-- What statuses hold when the entries of a list have been noted in them one after another. -/
structure Records (l : List (Int × Bool)) (s : Statuses) : Prop where
  wellFormed : s.WellFormed
  /-- Each id stands where it was noted first. -/
  ids_eq : s.ids = (l.map Prod.fst).eraseDups
  /-- Each id has the status that was noted last. -/
  get?_eq : ∀ id, s.get? id = l.reverse.lookup id

theorem records_empty : Records [] empty := ⟨wellFormed_empty, rfl, get?_empty⟩

theorem ids_insert_of_mem (h : s.WellFormed) (hid : id ∈ s.ids) (b : Bool) :
    (s.insert id b).ids = s.ids := by
  rw [ids, toList_insert_of_mem h hid, List.map_map]
  apply List.map_congr_left
  intro e _
  by_cases he : e.1 = id
  · rw [Function.comp_apply, if_pos he, he]
  · rw [Function.comp_apply, if_neg he]

theorem ids_insert_of_not_mem (h : s.WellFormed) (hid : id ∉ s.ids) (b : Bool) :
    (s.insert id b).ids = s.ids ++ [id] := by
  rw [ids, toList_insert_of_not_mem h hid, List.map_append]
  rfl

theorem Records.insert (h : Records l s) (id : Int) (b : Bool) :
    Records (l ++ [(id, b)]) (s.insert id b) where
  wellFormed := h.wellFormed.insert id b
  ids_eq := by
    rw [List.map_append, List.map_singleton]
    by_cases hid : id ∈ l.map Prod.fst
    · have hmem : id ∈ s.ids := by rwa [h.ids_eq, List.mem_eraseDups]
      rw [ids_insert_of_mem h.wellFormed hmem, h.ids_eq, eraseDups_concat_of_mem hid]
    · have hmem : id ∉ s.ids := by rwa [h.ids_eq, List.mem_eraseDups]
      rw [ids_insert_of_not_mem h.wellFormed hmem, h.ids_eq, eraseDups_concat_of_not_mem hid]
  get?_eq := by
    intro id'
    rw [get?_insert h.wellFormed, List.reverse_concat, Json.lookup_cons_eq_ite, h.get?_eq]
    simp only [eq_comm]

theorem records_ofList (l : List (Int × Bool)) : Records l (ofList l) := by
  induction l using List.reverseRecOn with
  | nil => exact records_empty
  | append_singleton l e ih =>
    rw [ofList, List.foldl_concat]
    exact ih.insert e.1 e.2

example : (ofList [(1, true), (2, false), (1, false)]).toList = [(1, false), (2, false)] := by
  decide +kernel

theorem lookup_reverse_eq_some_iff : l.reverse.lookup id = some b ↔ NotedLast l id b := by
  rw [List.lookup_eq_some_iff]
  constructor
  · rintro ⟨after, before, hl, hnone⟩
    refine ⟨before.reverse, after.reverse, ?_, ?_⟩
    · rw [← List.reverse_reverse l, hl, List.reverse_append, List.reverse_cons, List.append_assoc]
      rfl
    · intro hmem
      obtain ⟨e, he, rfl⟩ := List.mem_map.1 hmem
      exact absurd rfl (bne_iff_ne.1 (hnone e (List.mem_reverse.1 he)))
  · rintro ⟨before, after, rfl, hnone⟩
    refine ⟨after.reverse, before.reverse, ?_, ?_⟩
    · rw [List.reverse_append, List.reverse_cons, List.append_assoc]
      rfl
    · intro e he
      refine bne_iff_ne.2 ?_
      rintro rfl
      exact hnone (List.mem_map_of_mem (List.mem_reverse.1 he))

/-- In a list that notes each id once, what it notes is what it notes last. -/
theorem notedLast_iff_mem (h : (l.map Prod.fst).Nodup) : NotedLast l id b ↔ (id, b) ∈ l := by
  constructor
  · rintro ⟨before, after, rfl, -⟩
    exact List.mem_append_right before List.mem_cons_self
  · intro hmem
    obtain ⟨before, after, rfl⟩ := List.append_of_mem hmem
    rw [List.map_append, List.map_cons] at h
    exact ⟨before, after, rfl, (List.nodup_cons.1 h.of_append_right).1⟩

theorem Records.get?_eq_some_iff (h : Records l s) : s.get? id = some b ↔ NotedLast l id b := by
  rw [h.get?_eq, lookup_reverse_eq_some_iff]

theorem Records.get?_eq_none_iff (h : Records l s) : s.get? id = none ↔ id ∉ l.map Prod.fst := by
  rw [h.get?_eq, List.lookup_eq_none_iff, List.mem_map]
  constructor
  · rintro hnone ⟨e, he, rfl⟩
    exact absurd rfl (bne_iff_ne.1 (hnone e (List.mem_reverse.2 he)))
  · intro hnone e he
    refine bne_iff_ne.2 ?_
    rintro rfl
    exact hnone ⟨e, List.mem_reverse.1 he, rfl⟩

theorem Records.nodup_ids (h : Records l s) : s.ids.Nodup := by
  rw [h.ids_eq]
  exact nodup_eraseDups _

theorem Records.size_eq (h : Records l s) : s.size = (l.map Prod.fst).toFinset.card := by
  have hsame : (l.map Prod.fst).toFinset = s.ids.toFinset := by
    apply List.toFinset.ext
    intro id
    rw [h.ids_eq, List.mem_eraseDups]
  rw [hsame, List.toFinset_card_of_nodup h.nodup_ids, ids, List.length_map]
  rfl

/-- The status of an id is the one that its entry shows. -/
theorem WellFormed.get?_eq_some_iff (h : s.WellFormed) :
    s.get? id = some b ↔ (id, b) ∈ s.toList := by
  rw [toList, List.mem_iff_getElem?, get?]
  constructor
  · intro hget
    split at hget
    · next p hp =>
      obtain ⟨b', hb'⟩ := (h.position id p).1 hp
      rw [hb'] at hget
      cases hget
      exact ⟨p, by rw [Array.getElem?_toList, hb']⟩
    · cases hget
  · rintro ⟨p, hp⟩
    rw [Array.getElem?_toList] at hp
    rw [(h.position id p).2 ⟨b, hp⟩]
    simp only [hp, Option.map_some]

theorem WellFormed.position_lt (h : s.WellFormed) {p : Nat} (hp : s.positions[id]? = some p) :
    p < s.entries.size := by
  obtain ⟨b, hb⟩ := (h.position id p).1 hp
  exact (Array.getElem?_eq_some_iff.1 hb).1

/-! ## Written as an object -/

/-- The field of an entry: its id in decimal, and its status. -/
def fieldOf (e : Int × Bool) : String × Json := (toString e.1, .bool e.2)

/-- The entry that a field tells. -/
def entryOf? (f : String × Json) : Option (Int × Bool) :=
  match Numeral.signed? f.1.toList, f.2 with
  | some id, .bool b => some (id, b)
  | _, _ => none

/-- The bytes of the object. -/
def written (s : Statuses) : Bytes := Utf8.encode s.toJson.compact

/-- The entries that an object tells, in the order in which they are written. -/
def read? (bytes : Bytes) : Option (List (Int × Bool)) := do
  let fields ← Json.fieldsOf? bytes
  fields.mapM entryOf?

theorem toJson_eq (s : Statuses) : s.toJson = .object (s.toList.map fieldOf) := rfl

theorem entryOf?_fieldOf (e : Int × Bool) : entryOf? (fieldOf e) = some e := by
  have hread : Numeral.signed? (toString e.1).toList = some e.1 := Numeral.signed?_repr e.1
  simp only [entryOf?, fieldOf, hread]

theorem toString_inj {id id' : Int} : toString id = toString id' ↔ id = id' := by
  constructor
  · intro h
    have hread := Numeral.signed?_repr id
    rw [show id.repr = id'.repr from h, Numeral.signed?_repr] at hread
    exact (Option.some.inj hread).symm
  · exact congrArg toString

theorem mapM_entryOf? (l : List (Int × Bool)) : (l.map fieldOf).mapM entryOf? = some l := by
  induction l with
  | nil => rfl
  | cons e l ih => simp [List.mapM_cons, entryOf?_fieldOf, ih]

theorem fieldsOf?_written (s : Statuses) :
    Json.fieldsOf? s.written = some (s.toList.map fieldOf) := by
  rw [written, toJson_eq]
  apply Json.fieldsOf?_compact
  intro f hf
  obtain ⟨e, -, rfl⟩ := List.mem_map.1 hf
  exact Json.readsBack_bool _ _

theorem read?_written (s : Statuses) : read? s.written = some s.toList := by
  rw [read?, fieldsOf?_written]
  exact mapM_entryOf? s.toList

theorem map_fst_map_fieldOf (l : List (Int × Bool)) :
    (l.map fieldOf).map Prod.fst = (l.map Prod.fst).map toString := by
  rw [List.map_map, List.map_map]
  rfl

theorem lookup_map_fieldOf (l : List (Int × Bool)) (id : Int) :
    (l.map fieldOf).lookup (toString id) = (l.lookup id).map .bool := by
  induction l with
  | nil => rfl
  | cons e l ih =>
    rw [List.map_cons, fieldOf, Json.lookup_cons_eq_ite, ih, Json.lookup_cons_eq_ite]
    simp only [toString_inj]
    split <;> rfl

theorem Records.lookup_reverse_toList (h : Records l s) (id : Int) :
    s.toList.reverse.lookup id = s.get? id := by
  ext b
  rw [h.wellFormed.get?_eq_some_iff, lookup_reverse_eq_some_iff, notedLast_iff_mem h.nodup_ids]

/-- Statuses that are noted one after another agree with one another in every way of reading them:
the ids stand in the order in which they were noted first and each once, an id has the status that
was noted last, and so says the list. The object names each of these ids once and is read as the
same list, and in it the value of an id is its status. -/
theorem ofList_consistent (l : List (Int × Bool)) :
    (ofList l).ids = (l.map Prod.fst).eraseDups ∧ (ofList l).ids.Nodup ∧
    (∀ id b, (ofList l).get? id = some b ↔ NotedLast l id b) ∧
    (∀ id, (ofList l).get? id = none ↔ id ∉ l.map Prod.fst) ∧
    (∀ id b, (ofList l).get? id = some b ↔ (id, b) ∈ (ofList l).toList) ∧
    (ofList l).size = (l.map Prod.fst).toFinset.card ∧
    (∀ (id : Int) (p : Nat), (ofList l).positions[id]? = some p →
      p < (ofList l).entries.size ∧ ∃ b, (ofList l).entries[p]? = some (id, b)) ∧
    (∃ fields, Json.fieldsOf? (ofList l).written = some fields ∧
      fields.map Prod.fst = (ofList l).ids.map toString ∧ (fields.map Prod.fst).Nodup) ∧
    read? (ofList l).written = some (ofList l).toList ∧
    ∃ j, Json.document (ofList l).written = .ok j ∧
      ∀ id, j.get? (toString id) = ((ofList l).get? id).map .bool := by
  have h : Records l (ofList l) := records_ofList l
  have hfields := fieldsOf?_written (ofList l)
  have hnames := map_fst_map_fieldOf (ofList l).toList
  refine ⟨h.ids_eq, h.nodup_ids, fun id b => h.get?_eq_some_iff, fun id => h.get?_eq_none_iff,
    fun id b => h.wellFormed.get?_eq_some_iff, h.size_eq,
    fun id p hp => ⟨h.wellFormed.position_lt hp, (h.wellFormed.position id p).1 hp⟩,
    ⟨_, hfields, hnames, ?_⟩, read?_written _, ⟨_, Json.document_of_fieldsOf? hfields, ?_⟩⟩
  · rw [hnames]
    exact h.nodup_ids.map fun id id' => toString_inj.1
  · intro id
    rw [Json.get?_ofFields, ← List.map_reverse, lookup_map_fieldOf, h.lookup_reverse_toList]

end EventRelay.Ack.Statuses
