import EventRelay.Json.Printer
import EventRelay.Proofs.Json.Sequence
import EventRelay.Proofs.Text.Utf8

/-!
# Reading what was written

A text in quotes is read as the text that was quoted, whatever its characters
(`Quoted.takes_read`): each is written as itself or as an escape that stands for it
(`Quoted.takes_char`). So an object is read with the names that were written, and if its values are
read back, its fields come in the order in which they were written and as often
(`fieldsOf?_compact`).

A document does not keep that order; it is the value of the fields as they are written, of which the
last of a name counts (`document_of_fieldsOf?`, `get?_ofFields`).
-/

namespace EventRelay.Json

open Text

/-- The bytes of characters. -/
abbrev octets (l : List Char) : Bytes := l.flatMap String.utf8EncodeChar

/-! ## Texts -/

namespace Quoted

variable {s t rest v x r : Bytes} {b : UInt8} {c letter : Char}

theorem takes_content_quote (t : Bytes) : Takes content (0x22 :: t) [] t := by
  refine ⟨Nat.lt_succ_self _, ?_⟩
  rw [content, if_pos rfl]

theorem takes_content_escape (hx : Takes escape t x r) (h : Takes content r v rest) :
    Takes content (0x5C :: t) (x ++ v) rest := by
  obtain ⟨hr, hx⟩ := hx
  obtain ⟨hrest, h⟩ := h
  refine ⟨Nat.lt_succ_of_lt (Nat.lt_trans hrest hr), ?_⟩
  rw [content, if_neg (by decide), if_pos rfl]
  simp only [hx, h]

/-- A byte that stands for itself in a text. -/
def IsPlain (b : UInt8) : Prop := b ≠ 0x22 ∧ b ≠ 0x5C ∧ ¬ b < 0x20

theorem takes_content_plain (hs : ∀ b ∈ s, IsPlain b) (h : Takes content t v rest) :
    Takes content (s ++ t) (s ++ v) rest := by
  induction s with
  | nil => exact h
  | cons b s ih =>
    obtain ⟨⟨hquote, hbackslash, hcontrol⟩, hs⟩ := List.forall_mem_cons.1 hs
    obtain ⟨hlt, hread⟩ := ih hs
    refine ⟨Nat.lt_succ_of_lt hlt, ?_⟩
    show content (b :: (s ++ t)) = _
    rw [content, if_neg hquote, if_neg hbackslash, if_neg hcontrol]
    simp only [hread, List.cons_append]

theorem isPlain_ofNat {n : ℕ} (hn : n < 256) (hquote : n ≠ 0x22) (hbackslash : n ≠ 0x5C)
    (hcontrol : ¬ n < 0x20) : IsPlain (UInt8.ofNat n) := by
  have hbyte : (UInt8.ofNat n).toNat = n := Utf8.toNat_ofNat_of_lt hn
  refine ⟨fun h => hquote ?_, fun h => hbackslash ?_, ?_⟩
  · rw [← hbyte, h]
    rfl
  · rw [← hbyte, h]
    rfl
  · rw [UInt8.lt_iff_toNat_lt, hbyte]
    exact hcontrol

/-- The bytes of a character that is written as itself. -/
theorem isPlain_of_mem (hquote : c ≠ '"') (hbackslash : c ≠ '\\') (hcontrol : ¬ c.toNat < 0x20)
    (hb : b ∈ String.utf8EncodeChar c) : IsPlain b := by
  by_cases hascii : c.toNat < 128
  · rw [Utf8.utf8EncodeChar_ascii hascii, List.mem_singleton] at hb
    subst hb
    exact isPlain_ofNat (by omega) (fun h => hquote (Char.toNat_inj.1 h))
      (fun h => hbackslash (Char.toNat_inj.1 h)) hcontrol
  · -- no byte of a longer sequence is one of ASCII
    have hhigh {n : ℕ} (hlow : 128 ≤ n) (hn : n < 256) : IsPlain (UInt8.ofNat n) :=
      isPlain_ofNat hn (by omega) (by omega) (by omega)
    have hval : c.val.toNat = c.toNat := rfl
    have hlong : ¬ c.toNat ≤ 127 := by omega
    simp only [String.utf8EncodeChar, hval, hlong, if_false] at hb
    split at hb
    · simp only [List.mem_cons, List.not_mem_nil, or_false] at hb
      rcases hb with rfl | rfl <;> exact hhigh (by omega) (by omega)
    split at hb
    · simp only [List.mem_cons, List.not_mem_nil, or_false] at hb
      rcases hb with rfl | rfl | rfl <;> exact hhigh (by omega) (by omega)
    · simp only [List.mem_cons, List.not_mem_nil, or_false] at hb
      rcases hb with rfl | rfl | rfl | rfl <;> exact hhigh (by omega) (by omega)

/-- A letter behind a backslash is read as the character that it stands for. -/
theorem takes_escape_letter (h : escapeLetter? c = some letter) (t : Bytes) :
    Takes escape (String.utf8EncodeChar letter ++ t) (String.utf8EncodeChar c) t := by
  have hcode {n : ℕ} (hc : c.toNat = n) : c = Char.ofNat n := by rw [← hc, Char.ofNat_toNat]
  unfold escapeLetter? at h
  split_ifs at h with hquote hbackslash hfeed hreturn htab hback hform <;> cases h
  · rw [hquote]
    exact ⟨Nat.lt_succ_self _, rfl⟩
  · rw [hbackslash]
    exact ⟨Nat.lt_succ_self _, rfl⟩
  · rw [hfeed]
    exact ⟨Nat.lt_succ_self _, rfl⟩
  · rw [hreturn]
    exact ⟨Nat.lt_succ_self _, rfl⟩
  · rw [htab]
    exact ⟨Nat.lt_succ_self _, rfl⟩
  · rw [hcode hback]
    exact ⟨Nat.lt_succ_self _, rfl⟩
  · rw [hcode hform]
    exact ⟨Nat.lt_succ_self _, rfl⟩

theorem takes_codeUnit {m n : ℕ} (hm : m < 16) (hn : n < 16) (t : Bytes) :
    Takes codeUnit (octets ['0', '0', Nat.digitChar m, Nat.digitChar n] ++ t) (m * 16 + n) t := by
  have hdigit : ∀ k < 16, String.utf8EncodeChar (Nat.digitChar k) =
      [UInt8.ofNat (Nat.digitChar k).toNat] ∧
        hexDigit? (UInt8.ofNat (Nat.digitChar k).toNat) = some k := by
    decide
  obtain ⟨hleft, hm⟩ := hdigit m hm
  obtain ⟨hright, hn⟩ := hdigit n hn
  have hzero : String.utf8EncodeChar '0' = [0x30] ∧ hexDigit? 0x30 = some 0 := by decide
  simp only [octets, List.flatMap_cons, List.flatMap_nil, hzero.1, hleft, hright,
    List.cons_append, List.nil_append]
  refine ⟨by simp only [List.length_cons]; omega, ?_⟩
  simp only [codeUnit, hzero.2, hm, hn, Nat.zero_mul, Nat.zero_add]

/-- A control character without a letter is written with its number. -/
theorem takes_escape_control (h : c.toNat < 0x20) (t : Bytes) :
    Takes escape
      (octets ['u', '0', '0', Nat.digitChar (c.toNat / 16), Nat.digitChar (c.toNat % 16)] ++ t)
      (String.utf8EncodeChar c) t := by
  have hhigh : c.toNat / 16 < 16 := by omega
  have hlow : c.toNat % 16 < 16 := by omega
  obtain ⟨hlt, hunit⟩ := takes_codeUnit hhigh hlow t
  have hvalue : c.toNat / 16 * 16 + c.toNat % 16 = c.toNat := Nat.div_add_mod' _ _
  have htrailing : isTrailing c.toNat = false := by
    rw [isTrailing, decide_eq_false (by omega), Bool.false_and]
  have hleading : isLeading c.toNat = false := by
    rw [isLeading, decide_eq_false (by omega), Bool.false_and]
  have hpoint : pointBytes c.toNat = String.utf8EncodeChar c := by
    rw [pointBytes, Char.ofNat_toNat]
  refine ⟨Nat.lt_succ_of_lt hlt, ?_⟩
  show escape (0x75 :: (octets ['0', '0', _, _] ++ t)) = _
  rw [escape, if_pos rfl]
  simp only [unicode, hunit, hvalue, htrailing, hleading, hpoint, Bool.false_eq_true, if_false]
  rfl

/-- Each character is read as it was written. -/
theorem takes_char (c : Char) (h : Takes content t v rest) :
    Takes content (octets (escapeChar c) ++ t) (String.utf8EncodeChar c ++ v) rest := by
  unfold escapeChar
  split
  · next letter hletter =>
    rw [octets, List.flatMap_cons, List.flatMap_singleton, List.append_assoc]
    exact takes_content_escape (takes_escape_letter hletter t) h
  · next hnone =>
    have hquote : c ≠ '"' := by
      rintro rfl
      cases hnone
    have hbackslash : c ≠ '\\' := by
      rintro rfl
      cases hnone
    split
    · next hcontrol => exact takes_content_escape (takes_escape_control hcontrol t) h
    · next hcontrol =>
      rw [octets, List.flatMap_singleton]
      exact takes_content_plain (fun b hb => isPlain_of_mem hquote hbackslash hcontrol hb) h

theorem takes_content (l : List Char) (rest : Bytes) :
    Takes content (octets (l.flatMap escapeChar ++ ['"']) ++ rest) (octets l) rest := by
  induction l with
  | nil => exact takes_content_quote rest
  | cons c l ih =>
    have hchar := takes_char c ih
    rwa [← List.append_assoc, octets, octets, ← List.flatMap_append, ← List.append_assoc] at hchar

/-- A text in quotes is read as the text that was quoted. -/
theorem takes_read (text : String) (rest : Bytes) :
    Takes read (octets (text.toList.flatMap escapeChar ++ ['"']) ++ rest) text rest := by
  obtain ⟨hlt, hcontent⟩ := takes_content text.toList rest
  have htext : octets text.toList = Utf8.encode text := by
    rw [octets, ← Utf8.encode_ofList, String.ofList_toList]
  refine ⟨hlt, ?_⟩
  rw [read, hcontent]
  simp only [htext, Utf8.decode?_encode]

end Quoted

/-! ## Fields -/

/-- The value is read as it was written, whatever follows it. -/
def ReadsBack (depth : ℕ) (v : Json) : Prop :=
  ∀ rest, Takes (value depth) (octets v.chars ++ rest) v rest

variable {depth : ℕ} {fields : List (String × Json)} {s rest : Bytes}

theorem exists_valueWith (depth : ℕ) : ∃ nested, value depth = valueWith nested := by
  cases depth with
  | zero => exact ⟨none, rfl⟩
  | succ depth => exact ⟨some (value depth), rfl⟩

theorem readsBack_bool (depth : ℕ) (b : Bool) : ReadsBack depth (.bool b) := by
  intro rest
  obtain ⟨nested, hnested⟩ := exists_valueWith depth
  rw [hnested]
  cases b with
  | false =>
    have h : valueFrom nested 0x66 (0x61 :: 0x6C :: 0x73 :: 0x65 :: rest) =
        .ok ⟨.bool false, rest, by simp only [List.length_cons]; omega⟩ := rfl
    exact takes_valueWith rfl h
  | true =>
    have h : valueFrom nested 0x74 (0x72 :: 0x75 :: 0x65 :: rest) =
        .ok ⟨.bool true, rest, by simp only [List.length_cons]; omega⟩ := rfl
    exact takes_valueWith rfl h

/-- How a field is written. -/
def fieldText (f : String × Json) : List Char := quoted f.1 ++ ':' :: f.2.chars

theorem fieldChars_eq_map (fields : List (String × Json)) :
    fieldChars fields = fields.map fieldText := by
  induction fields with
  | nil => rfl
  | cons f fields ih => rw [fieldChars, ih, List.map_cons, fieldText]

theorem separated_cons (part : List Char) (parts : List (List Char)) :
    separated (part :: parts) = part ++ parts.flatMap fun p => ',' :: p := by
  induction parts generalizing part with
  | nil => exact (List.append_nil part).symm
  | cons p parts ih =>
    rw [separated, ih, List.flatMap_cons, List.cons_append]
    exact List.cons_ne_nil p parts

theorem takes_fieldText {f : String × Json} (h : ReadsBack depth f.2) (rest : Bytes) :
    Takes (field (value depth)) (octets (fieldText f) ++ rest) f rest := by
  have hname := Quoted.takes_read f.1 (0x3A :: (octets f.2.chars ++ rest))
  have hwritten : octets (fieldText f) ++ rest =
      0x22 :: (octets (f.1.toList.flatMap escapeChar ++ ['"']) ++
        0x3A :: (octets f.2.chars ++ rest)) := by
    simp only [octets, fieldText, quoted, List.flatMap_append, List.flatMap_cons,
      List.cons_append, List.append_assoc]
    rfl
  rw [hwritten]
  exact takes_field hname rfl (h rest)

theorem takes_moreFields (h : ∀ f ∈ fields, ReadsBack depth f.2) (rest : Bytes) :
    Takes (moreItems objectBrackets (field (value depth)))
      (octets ((fields.map fieldText).flatMap (',' :: ·) ++ ['}']) ++ rest) fields rest := by
  induction fields with
  | nil => exact takes_moreItems_close rfl
  | cons f fields ih =>
    obtain ⟨hf, hfields⟩ := List.forall_mem_cons.1 h
    have hwritten : octets (((f :: fields).map fieldText).flatMap (',' :: ·) ++ ['}']) ++ rest =
        0x2C :: (octets (fieldText f) ++
          (octets ((fields.map fieldText).flatMap (',' :: ·) ++ ['}']) ++ rest)) := by
      simp only [octets, List.map_cons, List.flatMap_append, List.flatMap_cons, List.cons_append,
        List.append_assoc]
      rfl
    rw [hwritten]
    exact takes_moreItems_cons rfl (by decide) rfl (by decide) (takes_fieldText hf _) (ih hfields)

/-- The fields of an object are read as they were written, in their order. -/
theorem takes_fields (h : ∀ f ∈ fields, ReadsBack depth f.2) (rest : Bytes) :
    Takes (items objectBrackets (field (value depth)))
      (octets (separated (fieldChars fields) ++ ['}']) ++ rest) fields rest := by
  rw [fieldChars_eq_map]
  cases fields with
  | nil => exact takes_items_nil rfl
  | cons f fields =>
    obtain ⟨hf, hfields⟩ := List.forall_mem_cons.1 h
    rw [List.map_cons, separated_cons, List.append_assoc, octets, List.flatMap_append,
      List.append_assoc]
    exact takes_items_cons rfl (by decide) (takes_fieldText hf _) (takes_moreFields hfields rest)

/-! ## Objects -/

/-- The fields of an object as they are written: in their order, and a repeated name as often as it
is there. Nothing for an input that holds more or less than an object and white space. -/
def fieldsOf? (s : Bytes) : Option (List (String × Json)) :=
  match skipSpace s with
  | [] => none
  | b :: t =>
    if b = 0x7B then
      match items objectBrackets (field (value (depthLimit - 1))) t with
      | .error _ => none
      | .ok x => if skipSpace x.rest = [] then some x.value else none
    else none

theorem fieldsOf?_eq_some_iff :
    fieldsOf? s = some fields ↔ ∃ t rest, skipSpace s = 0x7B :: t ∧
      Takes (items objectBrackets (field (value (depthLimit - 1)))) t fields rest ∧
        skipSpace rest = [] := by
  unfold fieldsOf?
  constructor
  · intro h
    split at h
    · cases h
    · next b t hs =>
      split at h
      · next hb =>
        split at h
        · cases h
        · next x hx =>
          split at h
          · next hrest =>
            cases h
            exact ⟨t, x.rest, by rw [hs, hb], ⟨x.shorter, hx⟩, hrest⟩
          · cases h
      · cases h
  · rintro ⟨t, rest, hs, ⟨hlt, hread⟩, hrest⟩
    rw [hs]
    simp only [hread, hrest, if_true]

/-- An object is the value of its fields as they are written. -/
theorem document_of_fieldsOf? (h : fieldsOf? s = some fields) :
    document s = .ok (ofFields fields) := by
  obtain ⟨t, rest, hs, ⟨hlt, hread⟩, hrest⟩ := fieldsOf?_eq_some_iff.1 h
  have hfrom : valueFrom (some (value (depthLimit - 1))) 0x7B t =
      .ok ⟨ofFields fields, rest, Nat.lt_succ_of_lt hlt⟩ := by
    rw [valueFrom_eq_behind, if_neg (by decide), if_neg (by decide), if_pos rfl]
    simp only [hread]
    rfl
  obtain ⟨hlt', hvalue⟩ := takes_valueWith hs hfrom
  have hdepth : value depthLimit = valueWith (some (value (depthLimit - 1))) := rfl
  rw [document, hdepth, hvalue]
  simp only [hrest]

/-- The fields of an object are read as they were written. -/
theorem fieldsOf?_compact (h : ∀ f ∈ fields, ReadsBack (depthLimit - 1) f.2) :
    fieldsOf? (Utf8.encode (compact (.object fields))) = some fields := by
  rw [fieldsOf?_eq_some_iff, compact, Utf8.encode_ofList]
  have hfields := takes_fields h []
  rw [List.append_nil] at hfields
  exact ⟨_, [], rfl, hfields, rfl⟩

/-! ## Looking up -/

theorem lookup_cons_eq_ite {κ ν : Type} [DecidableEq κ] (a k : κ) (v : ν) (l : List (κ × ν)) :
    ((k, v) :: l).lookup a = if a = k then some v else l.lookup a := by
  by_cases h : a = k
  · rw [if_pos h, h, List.lookup_cons_self]
  · rw [if_neg h, List.lookup_cons, beq_false_of_ne h]

theorem lookup_insertField (name key : String) (v : Json) (l : List (String × Json)) :
    (insertField name v l).lookup key = if key = name then some v else l.lookup key := by
  fun_induction insertField name v l with
  | case1 => exact lookup_cons_eq_ite ..
  | case2 => exact lookup_cons_eq_ite ..
  | case3 u rest =>
    rw [lookup_cons_eq_ite, lookup_cons_eq_ite]
    split <;> rfl
  | case4 k u rest _ hne ih =>
    rw [lookup_cons_eq_ite, lookup_cons_eq_ite, ih]
    by_cases h : key = name
    · rw [h, if_neg hne, if_pos rfl, if_pos rfl]
    · rw [if_neg h, if_neg h]

/-- Of two fields of one name the later counts. -/
theorem get?_ofFields (key : String) (fields : List (String × Json)) :
    (ofFields fields).get? key = fields.reverse.lookup key := by
  induction fields using List.reverseRecOn with
  | nil => rfl
  | append_singleton fields f ih =>
    rw [ofFields, List.foldl_concat, get?, lookup_insertField, List.reverse_concat,
      lookup_cons_eq_ite, ← ih]
    rfl

end EventRelay.Json
