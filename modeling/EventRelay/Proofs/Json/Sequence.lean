import EventRelay.Proofs.Json.Prefix
import Mathlib.Data.List.DropRight

/-!
# Sequences of values, cut where a value ends

Brackets and quotes show where a value ends, so what is read of an array, an object or a text does
not change when more is put behind the input (`takes_value_append`). In a sequence of values this
makes an object the same whatever follows it (`found_next?_append_of_object`), and white space in
front of a value is of no account (`found_next?_congr`).
-/

namespace EventRelay.Json

/-! ## Values -/

variable {α : Type} {s t rest : Bytes}

theorem skipSpace_append {b : UInt8} (h : skipSpace s = b :: t) (more : Bytes) :
    skipSpace (s ++ more) = b :: (t ++ more) := by
  have hne : s.dropWhile isSpace ≠ [] := fun hnone => List.cons_ne_nil b t (h.symm.trans hnone)
  rw [skipSpace, dropWhile_append_of_ne_nil hne, ← skipSpace, h, List.cons_append]

theorem skipSpace_append_of_blank (h : skipSpace s = []) (more : Bytes) :
    skipSpace (s ++ more) = skipSpace more := by
  have hblank : (s.dropWhile isSpace).isEmpty = true := by rwa [List.isEmpty_iff]
  rw [skipSpace, List.dropWhile_append, if_pos hblank, skipSpace]

theorem word_append {letters s : Bytes} {r : { r : Bytes // r.length ≤ s.length }}
    (h : word letters s = .ok r) (more : Bytes) :
    ∃ hle, word letters (s ++ more) = .ok ⟨r.val ++ more, hle⟩ := by
  fun_induction word letters s with
  | case1 s =>
    cases h
    exact ⟨Nat.le_refl _, by rw [word]⟩
  | case2 => cases h
  | case3 => cases h
  | case4 b letters s r' hword ih =>
    cases h
    obtain ⟨hle, hlater⟩ := ih hword
    exact ⟨Nat.le_succ_of_le hle, by simp only [List.cons_append, word, if_true, hlater]⟩
  | case5 => cases h

theorem takes_moreItems_close {k : Brackets} {item : Reader α} (h : skipSpace s = k.close :: t) :
    Takes (moreItems k item) s [] t := by
  have hlt : t.length < s.length := by
    have hle := length_skipSpace_le s
    rwa [h] at hle
  refine ⟨hlt, ?_⟩
  unfold moreItems
  split
  · next hnone =>
    rw [h] at hnone
    cases hnone
  · next b u hb =>
    rw [h] at hb
    cases hb
    rw [if_pos rfl]

theorem takes_moreItems_cons {k : Brackets} {item : Reader α} {c : UInt8} {u r : Bytes} {v : α}
    {vs : List α} (hcomma : skipSpace s = 0x2C :: t) (hclose : 0x2C ≠ k.close)
    (hitem : skipSpace t = c :: u) (hopen : c ≠ k.close) (hv : Takes item (c :: u) v r)
    (hvs : Takes (moreItems k item) r vs rest) :
    Takes (moreItems k item) s (v :: vs) rest := by
  obtain ⟨hr, hv⟩ := hv
  obtain ⟨hrest, hvs⟩ := hvs
  have ht := length_skipSpace_le s
  have hu := length_skipSpace_le t
  rw [hcomma] at ht
  rw [hitem] at hu
  simp only [List.length_cons] at ht hu hr
  refine ⟨by omega, ?_⟩
  unfold moreItems
  split
  · next hnone =>
    rw [hcomma] at hnone
    cases hnone
  · next b t' hb =>
    rw [hcomma] at hb
    cases hb
    rw [if_neg hclose, if_pos rfl]
    split
    · next hnone =>
      rw [hitem] at hnone
      cases hnone
    · next c' u' hc =>
      rw [hitem] at hc
      cases hc
      simp only [if_neg hopen, hv, hvs]

/-- A sequence of items is not at its end where the input is. -/
theorem rest_ne_nil_of_moreItems {k : Brackets} {item : Reader α} {y : Taken (List α) s}
    (h : moreItems k item s = .ok y) : s ≠ [] := by
  rintro rfl
  exact absurd y.shorter (Nat.not_lt_zero _)

theorem delimited_moreItems {k : Brackets} {item : Reader α} (hitem : Local item) :
    Delimited (moreItems k item) := by
  rintro s v rest ⟨h, hread⟩ more
  fun_induction moreItems k item s generalizing v rest with
  | case2 s t hs hlt =>
    cases hread
    exact takes_moreItems_close (skipSpace_append hs more)
  | case7 s t c u hc _ hopen x hx y hy hs _ hcomma _ ih =>
    cases hread
    exact takes_moreItems_cons (skipSpace_append hs more) hcomma
      (skipSpace_append hc more) hopen
      (hitem ⟨x.shorter, hx⟩ (rest_ne_nil_of_moreItems hy) more) (ih y.shorter hy)
  | _ => cases hread

theorem takes_items_nil {k : Brackets} {item : Reader α} (h : skipSpace s = k.close :: t) :
    Takes (items k item) s [] t := by
  have hle := length_skipSpace_le s
  rw [h] at hle
  refine ⟨hle, ?_⟩
  unfold items
  split
  · next hnone =>
    rw [h] at hnone
    cases hnone
  · next b u hb =>
    rw [h] at hb
    cases hb
    rw [if_pos rfl]

theorem takes_items_cons {k : Brackets} {item : Reader α} {b : UInt8} {r : Bytes} {v : α}
    {vs : List α} (hs : skipSpace s = b :: t) (hopen : b ≠ k.close) (hv : Takes item (b :: t) v r)
    (hvs : Takes (moreItems k item) r vs rest) : Takes (items k item) s (v :: vs) rest := by
  obtain ⟨hr, hv⟩ := hv
  obtain ⟨hrest, hvs⟩ := hvs
  have hle := length_skipSpace_le s
  rw [hs] at hle
  refine ⟨by omega, ?_⟩
  unfold items
  split
  · next hnone =>
    rw [hs] at hnone
    cases hnone
  · next b' t' hb =>
    rw [hs] at hb
    cases hb
    simp only [if_neg hopen, hv, hvs]

theorem delimited_items {k : Brackets} {item : Reader α} (hitem : Local item) :
    Delimited (items k item) := by
  rintro s v rest ⟨h, hread⟩ more
  unfold items at hread
  split at hread
  · cases hread
  · next b t hs =>
    have hlater := skipSpace_append hs more
    split at hread
    · next hclose =>
      cases hread
      rw [hclose] at hlater
      exact takes_items_nil hlater
    · next hopen =>
      split at hread
      · cases hread
      · next x hx =>
        split at hread
        · cases hread
        · next y hy =>
          cases hread
          exact takes_items_cons hlater hopen
            (hitem ⟨x.shorter, hx⟩ (rest_ne_nil_of_moreItems hy) more)
            (delimited_moreItems hitem ⟨y.shorter, hy⟩ more)

theorem takes_field {value : Reader Json} {u r : Bytes} {name : String} {v : Json}
    (hname : Takes Quoted.read s name r) (hcolon : skipSpace r = 0x3A :: u)
    (hvalue : Takes value u v rest) : Takes (field value) (0x22 :: s) (name, v) rest := by
  obtain ⟨hr, hname⟩ := hname
  obtain ⟨hrest, hvalue⟩ := hvalue
  have hu := length_skipSpace_le r
  rw [hcolon] at hu
  simp only [List.length_cons] at hu
  refine ⟨by simp only [List.length_cons]; omega, ?_⟩
  simp only [field, if_true, hname]
  split
  · next hnone =>
    rw [hcolon] at hnone
    cases hnone
  · next c u' hc =>
    rw [hcolon] at hc
    cases hc
    simp only [if_true, hvalue]

theorem local_field {value : Reader Json} (hvalue : Local value) : Local (field value) := by
  rintro s v rest ⟨h, hread⟩ hrest more
  unfold field at hread
  split at hread
  · cases hread
  · next b t =>
    split at hread
    · next hquote =>
      split at hread
      · cases hread
      · next name hname =>
        split at hread
        · cases hread
        · next c u hu =>
          split at hread
          · next hcolon =>
            split at hread
            · cases hread
            · next x hx =>
              cases hread
              rw [hcolon] at hu
              rw [hquote]
              exact takes_field (Quoted.delimited_read ⟨name.shorter, hname⟩ more)
                (skipSpace_append hu more)
                (hvalue ⟨x.shorter, hx⟩ hrest more)
          · cases hread
    · cases hread

theorem wordValue_append {letters : Bytes} {v : Json} {b : UInt8} {x : Taken Json (b :: t)}
    (h : wordValue letters v b t = .ok x) (more : Bytes) :
    ∃ hlt, wordValue letters v b (t ++ more) = .ok ⟨x.value, x.rest ++ more, hlt⟩ := by
  unfold wordValue at h
  split at h
  · cases h
  · next r hr =>
    cases h
    obtain ⟨hle, hword⟩ := word_append hr more
    exact ⟨Nat.lt_succ_of_le hle, by simp only [wordValue, hword]⟩

/-- The value that what is read behind a byte makes. -/
def Taken.behind (make : α → Json) (b : UInt8) :
    Except Fault (Taken α t) → Except Fault (Taken Json (b :: t))
  | .error f => .error f
  | .ok x => .ok ⟨make x.value, x.rest, Nat.lt_succ_of_lt x.shorter⟩

theorem Taken.behind_append {read : Reader α} {make : α → Json} {b : UInt8}
    {x : Taken Json (b :: t)} (h : behind make b (read t) = .ok x)
    (hread : ∀ v, Takes read t v x.rest → Takes read (t ++ more) v (x.rest ++ more)) :
    ∃ hlt, behind make b (read (t ++ more)) = .ok ⟨x.value, x.rest ++ more, hlt⟩ := by
  unfold behind at h
  split at h
  · cases h
  · next y hy =>
    cases h
    obtain ⟨hlt, hlater⟩ := hread y.value ⟨y.shorter, hy⟩
    exact ⟨Nat.lt_succ_of_lt hlt, by rw [hlater]; rfl⟩

theorem valueFrom_eq_behind (nested : Option (Reader Json)) (b : UInt8) (t : Bytes) :
    valueFrom nested b t =
      if b = 0x22 then Taken.behind .text b (Quoted.read t)
      else if b = 0x5B then
        match nested with
        | none => .error ⟨.tooDeep, t⟩
        | some value => Taken.behind .array b (items arrayBrackets value t)
      else if b = 0x7B then
        match nested with
        | none => .error ⟨.tooDeep, t⟩
        | some value => Taken.behind ofFields b (items objectBrackets (field value) t)
      else if b = 0x2D then Taken.behind .number b (Numeric.read true t)
      else if Numeric.isDigit b then
        match Numeric.read false (b :: t) with
        | .error f => .error f
        | .ok x => .ok ⟨.number x.value, x.rest, x.shorter⟩
      else if b = 0x6E then wordValue [0x75, 0x6C, 0x6C] .null b t
      else if b = 0x74 then wordValue [0x72, 0x75, 0x65] (.bool true) b t
      else if b = 0x66 then wordValue [0x61, 0x6C, 0x73, 0x65] (.bool false) b t
      else .error ⟨.valueExpected, t⟩ := by
  unfold valueFrom Taken.behind
  split
  · cases Quoted.read t <;> rfl
  split
  · cases nested with
    | none => rfl
    | some value =>
      dsimp only
      cases items arrayBrackets value t <;> rfl
  split
  · cases nested with
    | none => rfl
    | some value =>
      dsimp only
      cases items objectBrackets (field value) t <;> rfl
  split
  · cases Numeric.read true t <;> rfl
  rfl

/-- A value is read alike with more behind it, if something was left behind it already or it starts
with a bracket or a quote. -/
theorem valueFrom_append {nested : Option (Reader Json)} (hnested : ∀ read ∈ nested, Local read)
    {b : UInt8} {x : Taken Json (b :: t)} (h : valueFrom nested b t = .ok x)
    (hends : x.rest ≠ [] ∨ delimitsItself b = true) (more : Bytes) :
    ∃ hlt, valueFrom nested b (t ++ more) = .ok ⟨x.value, x.rest ++ more, hlt⟩ := by
  rw [valueFrom_eq_behind] at h ⊢
  by_cases hquote : b = 0x22
  · simp only [if_pos hquote] at h ⊢
    exact Taken.behind_append h fun _ htakes => Quoted.delimited_read htakes more
  simp only [if_neg hquote] at h ⊢
  by_cases harray : b = 0x5B
  · simp only [if_pos harray] at h ⊢
    cases nested with
    | none => cases h
    | some value =>
      have hitems := delimited_items (k := arrayBrackets) (hnested value rfl)
      exact Taken.behind_append h fun _ htakes => hitems htakes more
  simp only [if_neg harray] at h ⊢
  by_cases hobject : b = 0x7B
  · simp only [if_pos hobject] at h ⊢
    cases nested with
    | none => cases h
    | some value =>
      have hitems := delimited_items (k := objectBrackets) (local_field (hnested value rfl))
      exact Taken.behind_append h fun _ htakes => hitems htakes more
  have hrest : x.rest ≠ [] :=
    hends.resolve_right (by simp [delimitsItself, hquote, harray, hobject])
  simp only [if_neg hobject] at h ⊢
  by_cases hminus : b = 0x2D
  · simp only [if_pos hminus] at h ⊢
    exact Taken.behind_append h fun _ htakes => Numeric.local_read true htakes hrest more
  simp only [if_neg hminus] at h ⊢
  by_cases hdigit : Numeric.isDigit b = true
  · simp only [if_pos hdigit] at h ⊢
    split at h
    · cases h
    · next y hy =>
      cases h
      obtain ⟨hlt, hlater⟩ := Numeric.local_read false ⟨y.shorter, hy⟩ hrest more
      simp only [List.cons_append] at hlt hlater
      exact ⟨hlt, by simp only [hlater]⟩
  simp only [if_neg hdigit] at h ⊢
  by_cases hnull : b = 0x6E
  · simp only [if_pos hnull] at h ⊢
    exact wordValue_append h more
  simp only [if_neg hnull] at h ⊢
  by_cases htrue : b = 0x74
  · simp only [if_pos htrue] at h ⊢
    exact wordValue_append h more
  simp only [if_neg htrue] at h ⊢
  by_cases hfalse : b = 0x66
  · simp only [if_pos hfalse] at h ⊢
    exact wordValue_append h more
  simp only [if_neg hfalse] at h
  cases h

theorem takes_valueWith {nested : Option (Reader Json)} {b : UInt8} {x : Taken Json (b :: t)}
    (hs : skipSpace s = b :: t) (h : valueFrom nested b t = .ok x) :
    Takes (valueWith nested) s x.value x.rest := by
  have hle := length_skipSpace_le s
  rw [hs] at hle
  refine ⟨Nat.lt_of_lt_of_le x.shorter hle, ?_⟩
  unfold valueWith
  split
  · next hnone =>
    rw [hs] at hnone
    cases hnone
  · next b' t' hb =>
    rw [hs] at hb
    cases hb
    simp only [h]
    rfl

/-- What `valueWith` takes, `valueFrom` takes behind the first byte that is no white space. -/
theorem valueFrom_of_takes {nested : Option (Reader Json)} {v : Json}
    (h : Takes (valueWith nested) s v rest) :
    ∃ b t hlt, skipSpace s = b :: t ∧ valueFrom nested b t = .ok ⟨v, rest, hlt⟩ := by
  obtain ⟨hlt, hread⟩ := h
  unfold valueWith at hread
  split at hread
  · cases hread
  · next b t hs =>
    split at hread
    · cases hread
    · next x hx =>
      cases hread
      exact ⟨b, t, x.shorter, hs, hx⟩

theorem takes_valueWith_append {nested : Option (Reader Json)}
    (hnested : ∀ read ∈ nested, Local read) {v : Json} (h : Takes (valueWith nested) s v rest)
    (hends : rest ≠ [] ∨ ∀ b ∈ (skipSpace s).head?, delimitsItself b = true) (more : Bytes) :
    Takes (valueWith nested) (s ++ more) v (rest ++ more) := by
  obtain ⟨b, t, hlt, hs, hx⟩ := valueFrom_of_takes h
  rw [hs] at hends
  obtain ⟨hlater, hx'⟩ := valueFrom_append hnested hx (hends.imp_right fun h => h b rfl) more
  exact takes_valueWith (skipSpace_append hs more) hx'

theorem takes_value_append {depth : Nat} {v : Json} (h : Takes (value depth) s v rest)
    (hends : rest ≠ [] ∨ ∀ b ∈ (skipSpace s).head?, delimitsItself b = true) (more : Bytes) :
    Takes (value depth) (s ++ more) v (rest ++ more) := by
  induction depth generalizing s v rest more with
  | zero => exact takes_valueWith_append (by rintro read ⟨⟩) h hends more
  | succ depth ih =>
    have hnested : ∀ read ∈ some (value depth), Local read := by
      rintro read ⟨⟩ s v rest htakes hrest more
      exact ih htakes (.inl hrest) more
    exact takes_valueWith_append hnested h hends more

/-! ## Sequences of values -/

theorem skipSpace_of_skipSpace {b : UInt8} (h : skipSpace s = b :: t) :
    skipSpace (b :: t) = b :: t := by
  rw [← h]
  exact List.dropWhile_idempotent isSpace s

theorem Taken.value_of_behind {make : α → Json} {b : UInt8} {e : Except Fault (Taken α t)}
    {x : Taken Json (b :: t)} (h : behind make b e = .ok x) : ∃ v, x.value = make v := by
  cases e with
  | error f => cases h
  | ok y =>
    cases h
    exact ⟨y.value, rfl⟩

theorem value_of_wordValue {letters : Bytes} {v : Json} {b : UInt8} {x : Taken Json (b :: t)}
    (h : wordValue letters v b t = .ok x) : x.value = v := by
  unfold wordValue at h
  split at h
  · cases h
  · cases h
    rfl

/-- Only an opening brace starts an object. -/
theorem eq_of_valueFrom_object {nested : Option (Reader Json)} {b : UInt8} {x : Taken Json (b :: t)}
    {fields : List (String × Json)} (h : valueFrom nested b t = .ok x)
    (hobject : x.value = .object fields) : b = 0x7B := by
  by_contra hbrace
  rw [valueFrom_eq_behind] at h
  simp only [if_neg hbrace] at h
  have hbehind {α : Type} {make : α → Json} {e : Except Fault (Taken α t)}
      (hmake : ∀ v, make v ≠ .object fields) : Taken.behind make b e ≠ .ok x := by
    intro hx
    obtain ⟨v, hv⟩ := Taken.value_of_behind hx
    exact hmake v (hv.symm.trans hobject)
  have hword {letters : Bytes} {v : Json} (hx : wordValue letters v b t = .ok x) :
      v = .object fields := (value_of_wordValue hx).symm.trans hobject
  split at h
  · exact hbehind nofun h
  split at h
  · cases nested with
    | none => cases h
    | some value => exact hbehind nofun h
  split at h
  · exact hbehind nofun h
  split at h
  · split at h
    · cases h
    · cases h
      cases hobject
  split at h
  · cases hword h
  split at h
  · cases hword h
  split at h
  · cases hword h
  · cases h

/-- What `next?` finds and leaves. -/
def found (r : Except Fault (Option (Taken Json s))) : Except Fault (Option (Json × Bytes)) :=
  r.map (Option.map fun x => (x.value, x.rest))

theorem found_next?_of_nil (hs : skipSpace s = []) : found (next? s) = .ok none := by
  unfold next?
  split
  · rfl
  · next ht =>
    rw [hs] at ht
    cases ht

theorem found_next?_of_cons {b : UInt8} (hs : skipSpace s = b :: t) :
    found (next? s) =
      match value depthLimit (b :: t) with
      | .error f => .error f
      | .ok x =>
        if delimitsItself b then .ok (some (x.value, x.rest))
        else
          match x.rest with
          | [] => .ok (some (x.value, x.rest))
          | c :: u =>
            if endsWord c then .ok (some (x.value, x.rest)) else .error ⟨.trailingBytes, u⟩ := by
  unfold next?
  split
  · next ht =>
    rw [hs] at ht
    cases ht
  · next b' t' ht =>
    rw [hs] at ht
    cases ht
    cases value depthLimit (b :: t) with
    | error f => rfl
    | ok x =>
      dsimp only
      by_cases hb : delimitsItself b = true
      · rw [if_pos hb, if_pos hb]
        rfl
      rw [if_neg hb, if_neg hb]
      obtain ⟨v, rest, hlt⟩ := x
      cases rest with
      | nil => rfl
      | cons c u =>
        dsimp only
        by_cases hc : endsWord c = true
        · rw [if_pos hc, if_pos hc]
          rfl
        · rw [if_neg hc, if_neg hc]
          rfl

theorem skipSpace_of_found_none (h : found (next? s) = .ok none) : skipSpace s = [] := by
  cases hs : skipSpace s with
  | nil => rfl
  | cons b t =>
    rw [found_next?_of_cons hs] at h
    repeat' split at h
    all_goals cases h

/-- White space in front has no part in what is found. -/
theorem found_next?_congr {s t : Bytes} (h : skipSpace s = skipSpace t) :
    found (next? s) = found (next? t) := by
  cases ht : skipSpace t with
  | nil => rw [found_next?_of_nil ht, found_next?_of_nil (h.trans ht)]
  | cons b u => rw [found_next?_of_cons ht, found_next?_of_cons (h.trans ht)]

/-- An object shows where it ends, so what follows it has no part in it. -/
theorem found_next?_append_of_object {fields : List (String × Json)}
    (h : found (next? s) = .ok (some (.object fields, rest))) (more : Bytes) :
    found (next? (s ++ more)) = .ok (some (.object fields, rest ++ more)) := by
  cases hs : skipSpace s with
  | nil =>
    rw [found_next?_of_nil hs] at h
    cases h
  | cons b t =>
    rw [found_next?_of_cons hs] at h
    cases hvalue : value depthLimit (b :: t) with
    | error f =>
      rw [hvalue] at h
      cases h
    | ok x =>
      obtain ⟨hv, hrest⟩ : x.value = .object fields ∧ x.rest = rest := by
        simp only [hvalue] at h
        split at h
        · simpa using h
        split at h
        · simpa using h
        split at h
        · simpa using h
        · cases h
      have htakes : Takes (value depthLimit) (b :: t) x.value x.rest := ⟨x.shorter, hvalue⟩
      obtain ⟨b', t', hlt, hs', hfrom⟩ := valueFrom_of_takes htakes
      rw [skipSpace_of_skipSpace hs] at hs'
      cases hs'
      cases eq_of_valueFrom_object hfrom hv
      obtain ⟨hlt', hlater⟩ := takes_value_append htakes
        (.inr (by rw [skipSpace_of_skipSpace hs]; rintro b ⟨⟩; rfl)) more
      simp only [List.cons_append] at hlt' hlater
      rw [found_next?_of_cons (skipSpace_append hs more), ← hv, ← hrest]
      simp only [hlater]
      rfl

end EventRelay.Json
