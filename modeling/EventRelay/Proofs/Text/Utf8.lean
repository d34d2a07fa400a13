import EventRelay.Text.Utf8
import Mathlib.Data.List.Forall2

/-!
# Bytes of a text, character by character

The bytes of a text are those of its characters one behind the other (`encode_ofList`), one byte for
each ASCII character (`encode_ofList_ascii`). The reader that replaces what it cannot read replaces
nothing in them: it finds each character with all its bytes (`Step.whole`), so it gives the text
back (`decodeLossy_encode`).
-/

namespace EventRelay.Text.Utf8

theorem encode_ofList (l : List Char) :
    encode (String.ofList l) = l.flatMap String.utf8EncodeChar := by
  rw [encode, String.toByteArray_ofList, List.utf8Encode, List.data_toByteArray]

theorem utf8EncodeChar_ascii {c : Char} (h : c.toNat < 128) :
    String.utf8EncodeChar c = [UInt8.ofNat c.toNat] := by
  have hle : c.val.toNat ≤ 127 := Nat.le_of_lt_succ h
  simp only [String.utf8EncodeChar, hle, if_true]
  rfl

theorem encode_ofList_ascii {l : List Char} (h : ∀ c ∈ l, c.toNat < 128) :
    encode (String.ofList l) = l.map fun c => UInt8.ofNat c.toNat := by
  rw [encode_ofList]
  induction l with
  | nil => rfl
  | cons c l ih =>
    have hc : c.toNat < 128 := h c List.mem_cons_self
    have hl : ∀ c ∈ l, c.toNat < 128 := fun c' hc' => h c' (List.mem_cons_of_mem _ hc')
    rw [List.flatMap_cons, utf8EncodeChar_ascii hc, ih hl]
    rfl

theorem toNat_ofNat_of_lt {n : Nat} (h : n < 256) : (UInt8.ofNat n).toNat = n := by
  rw [UInt8.toNat_ofNat']
  exact Nat.mod_eq_of_lt h

/-- A written number has one byte for each digit. -/
theorem encode_repr (n : Nat) :
    encode n.repr = (Nat.toDigits 10 n).map fun c => UInt8.ofNat c.toNat := by
  rw [Nat.repr_eq_ofList_toDigits]
  apply encode_ofList_ascii
  intro c hc
  have hdigit := Nat.isDigit_of_mem_toDigits (by decide) (by decide) hc
  have hcode : c.toNat ≤ 57 := (Char.isDigit_iff_toNat.1 hdigit).2
  omega

theorem toNat_of_mem_encode_repr {n : Nat} {b : UInt8} (h : b ∈ encode n.repr) :
    48 ≤ b.toNat ∧ b.toNat ≤ 57 := by
  rw [encode_repr] at h
  obtain ⟨c, hc, rfl⟩ := List.mem_map.1 h
  have hdigit := Nat.isDigit_of_mem_toDigits (by decide) (by decide) hc
  have hcode : 48 ≤ c.toNat ∧ c.toNat ≤ 57 := Char.isDigit_iff_toNat.1 hdigit
  rwa [toNat_ofNat_of_lt (by omega)]

/-! ## Characters among arbitrary bytes -/

/-- Bytes that lie in their ranges, one range for each. -/
abbrev Fits (ranges : List (UInt8 × UInt8)) (tail : Bytes) : Prop :=
  List.Forall₂ (fun r b => r.1 ≤ b ∧ b ≤ r.2) ranges tail

theorem matching_append {ranges : List (UInt8 × UInt8)} {tail : Bytes} (h : Fits ranges tail)
    (rest : Bytes) : matching ranges (tail ++ rest) = tail := by
  induction h with
  | nil => rfl
  | cons hb _ ih =>
    rw [List.cons_append, matching, if_pos hb, ih]

theorem Step.ofBytes_of_fits {b : UInt8} {ranges : List (UInt8 × UInt8)} {tail : Bytes} {c : Char}
    (hb : followers b = some ranges) (hfits : Fits ranges tail) (hc : codePoint b tail = c.toNat)
    (rest : Bytes) : Step.ofBytes b (tail ++ rest) = ⟨some c, tail.length⟩ := by
  simp only [Step.ofBytes, hb, matching_append hfits, hfits.length_eq, if_true, hc,
    Char.ofNat_toNat]

/-- The followers of a byte, in terms of its number. -/
theorem followers_ofNat {n : Nat} (h : n < 256) :
    followers (UInt8.ofNat n) =
      if n < 0x80 then some []
      else if n < 0xC2 then none
      else if n < 0xE0 then some [(0x80, 0xBF)]
      else if n = 0xE0 then some [(0xA0, 0xBF), (0x80, 0xBF)]
      else if n = 0xED then some [(0x80, 0x9F), (0x80, 0xBF)]
      else if n < 0xF0 then some [(0x80, 0xBF), (0x80, 0xBF)]
      else if n = 0xF0 then some [(0x90, 0xBF), (0x80, 0xBF), (0x80, 0xBF)]
      else if n < 0xF4 then some [(0x80, 0xBF), (0x80, 0xBF), (0x80, 0xBF)]
      else if n = 0xF4 then some [(0x80, 0x8F), (0x80, 0xBF), (0x80, 0xBF)]
      else none := by
  simp only [followers, UInt8.lt_iff_toNat_lt, ← UInt8.toNat_inj, toNat_ofNat_of_lt h]
  rfl

theorem fits_cons {r : UInt8 × UInt8} {ranges : List (UInt8 × UInt8)} {n : Nat} {tail : Bytes}
    (hlow : r.1.toNat ≤ n) (hhigh : n ≤ r.2.toNat) (h : Fits ranges tail) :
    Fits (r :: ranges) (UInt8.ofNat n :: tail) := by
  have hn : n < 256 := Nat.lt_of_le_of_lt hhigh (UInt8.toNat_lt r.2)
  refine .cons ?_ h
  rw [UInt8.le_iff_toNat_le, UInt8.le_iff_toNat_le, toNat_ofNat_of_lt hn]
  exact ⟨hlow, hhigh⟩

/-- The last byte of a character, or a byte in its middle that no range narrows. -/
theorem fits_follower {ranges : List (UInt8 × UInt8)} {tail : Bytes} (n : Nat)
    (h : Fits ranges tail) :
    Fits ((0x80, 0xBF) :: ranges) (UInt8.ofNat (n % 64 + 128) :: tail) := by
  apply fits_cons _ _ h
  · change 0x80 ≤ _
    omega
  · change _ ≤ 0xBF
    omega

/-- What a reader makes of the bytes of a character: the character with all its bytes. -/
def Step.Whole (c : Char) : Prop :=
  ∃ b tail, String.utf8EncodeChar c = b :: tail ∧
    ∀ rest, Step.ofBytes b (tail ++ rest) = ⟨some c, tail.length⟩

theorem Step.Whole.of_fits {c : Char} {b : UInt8} (ranges : List (UInt8 × UInt8)) {tail : Bytes}
    (henc : String.utf8EncodeChar c = b :: tail) (hb : followers b = some ranges)
    (hfits : Fits ranges tail) (hc : codePoint b tail = c.toNat) : Step.Whole c :=
  ⟨b, tail, henc, Step.ofBytes_of_fits hb hfits hc⟩

section Lengths

variable {c : Char}

theorem Step.whole_one (h : c.toNat ≤ 0x7F) : Step.Whole c := by
  apply Step.Whole.of_fits [] (utf8EncodeChar_ascii (Nat.lt_succ_of_le h))
  · rw [followers_ofNat (by omega), if_pos (by omega)]
  · exact .nil
  · exact toNat_ofNat_of_lt (by omega)

theorem Step.whole_two (h : 0x7F < c.toNat) (h' : c.toNat ≤ 0x7FF) : Step.Whole c := by
  have henc : String.utf8EncodeChar c =
      [UInt8.ofNat (c.toNat / 64 % 32 + 192), UInt8.ofNat (c.toNat % 64 + 128)] := by
    have hval : c.val.toNat = c.toNat := rfl
    simp only [String.utf8EncodeChar, hval, Nat.not_le_of_lt h, h', if_true, if_false]
  apply Step.Whole.of_fits [(0x80, 0xBF)] henc
  · rw [followers_ofNat (by omega), if_neg (by omega), if_neg (by omega), if_pos (by omega)]
  · exact fits_follower _ .nil
  · simp only [codePoint, List.length_cons, List.length_nil, List.foldl_cons, List.foldl_nil]
    rw [toNat_ofNat_of_lt (by omega), toNat_ofNat_of_lt (by omega)]
    omega

theorem Step.whole_three (h : 0x7FF < c.toNat) (h' : c.toNat ≤ 0xFFFF) : Step.Whole c := by
  have hvalid : c.toNat < 0xD800 ∨ 0xDFFF < c.toNat ∧ c.toNat < 0x110000 := c.valid
  have henc : String.utf8EncodeChar c = [UInt8.ofNat (c.toNat / 4096 % 16 + 224),
      UInt8.ofNat (c.toNat / 64 % 64 + 128), UInt8.ofNat (c.toNat % 64 + 128)] := by
    have hval : c.val.toNat = c.toNat := rfl
    have hlong : ¬ c.toNat ≤ 127 := by omega
    simp only [String.utf8EncodeChar, hval, hlong, Nat.not_le_of_lt h, h', if_true, if_false]
  have hcode : codePoint (UInt8.ofNat (c.toNat / 4096 % 16 + 224))
      [UInt8.ofNat (c.toNat / 64 % 64 + 128), UInt8.ofNat (c.toNat % 64 + 128)] = c.toNat := by
    simp only [codePoint, List.length_cons, List.length_nil, List.foldl_cons, List.foldl_nil]
    rw [toNat_ofNat_of_lt (by omega), toNat_ofNat_of_lt (by omega), toNat_ofNat_of_lt (by omega)]
    omega
  -- the first byte may narrow the range of the second: no overlong form, no surrogate
  by_cases hlow : c.toNat / 4096 % 16 + 224 = 0xE0
  · refine .of_fits [(0xA0, 0xBF), (0x80, 0xBF)] henc ?_
      (fits_cons ?_ ?_ (fits_follower _ .nil)) hcode
    · rw [followers_ofNat (by omega), if_neg (by omega), if_neg (by omega), if_neg (by omega),
        if_pos hlow]
    · change 0xA0 ≤ _
      omega
    · change _ ≤ 0xBF
      omega
  by_cases hsurrogate : c.toNat / 4096 % 16 + 224 = 0xED
  · refine .of_fits [(0x80, 0x9F), (0x80, 0xBF)] henc ?_
      (fits_cons ?_ ?_ (fits_follower _ .nil)) hcode
    · rw [followers_ofNat (by omega), if_neg (by omega), if_neg (by omega), if_neg (by omega),
        if_neg hlow, if_pos hsurrogate]
    · change 0x80 ≤ _
      omega
    · change _ ≤ 0x9F
      omega
  refine .of_fits [(0x80, 0xBF), (0x80, 0xBF)] henc ?_
    (fits_follower _ (fits_follower _ .nil)) hcode
  rw [followers_ofNat (by omega), if_neg (by omega), if_neg (by omega), if_neg (by omega),
    if_neg hlow, if_neg hsurrogate, if_pos (by omega)]

theorem Step.whole_four (h : 0xFFFF < c.toNat) : Step.Whole c := by
  have hvalid : c.toNat < 0xD800 ∨ 0xDFFF < c.toNat ∧ c.toNat < 0x110000 := c.valid
  have henc : String.utf8EncodeChar c = [UInt8.ofNat (c.toNat / 262144 % 8 + 240),
      UInt8.ofNat (c.toNat / 4096 % 64 + 128), UInt8.ofNat (c.toNat / 64 % 64 + 128),
      UInt8.ofNat (c.toNat % 64 + 128)] := by
    have hval : c.val.toNat = c.toNat := rfl
    have hlong : ¬ c.toNat ≤ 127 := by omega
    have hlonger : ¬ c.toNat ≤ 2047 := by omega
    simp only [String.utf8EncodeChar, hval, hlong, hlonger, Nat.not_le_of_lt h, if_false]
  have hcode : codePoint (UInt8.ofNat (c.toNat / 262144 % 8 + 240))
      [UInt8.ofNat (c.toNat / 4096 % 64 + 128), UInt8.ofNat (c.toNat / 64 % 64 + 128),
        UInt8.ofNat (c.toNat % 64 + 128)] = c.toNat := by
    simp only [codePoint, List.length_cons, List.length_nil, List.foldl_cons, List.foldl_nil]
    rw [toNat_ofNat_of_lt (by omega), toNat_ofNat_of_lt (by omega), toNat_ofNat_of_lt (by omega),
      toNat_ofNat_of_lt (by omega)]
    omega
  -- here the narrowed ranges keep out overlong forms and values past the last code point
  by_cases hlow : c.toNat / 262144 % 8 + 240 = 0xF0
  · refine .of_fits [(0x90, 0xBF), (0x80, 0xBF), (0x80, 0xBF)] henc ?_
      (fits_cons ?_ ?_ (fits_follower _ (fits_follower _ .nil))) hcode
    · rw [followers_ofNat (by omega), if_neg (by omega), if_neg (by omega), if_neg (by omega),
        if_neg (by omega), if_neg (by omega), if_neg (by omega), if_pos hlow]
    · change 0x90 ≤ _
      omega
    · change _ ≤ 0xBF
      omega
  by_cases hlast : c.toNat / 262144 % 8 + 240 = 0xF4
  · refine .of_fits [(0x80, 0x8F), (0x80, 0xBF), (0x80, 0xBF)] henc ?_
      (fits_cons ?_ ?_ (fits_follower _ (fits_follower _ .nil))) hcode
    · rw [followers_ofNat (by omega), if_neg (by omega), if_neg (by omega), if_neg (by omega),
        if_neg (by omega), if_neg (by omega), if_neg (by omega), if_neg hlow, if_neg (by omega),
        if_pos hlast]
    · change 0x80 ≤ _
      omega
    · change _ ≤ 0x8F
      omega
  refine .of_fits [(0x80, 0xBF), (0x80, 0xBF), (0x80, 0xBF)] henc ?_
    (fits_follower _ (fits_follower _ (fits_follower _ .nil))) hcode
  rw [followers_ofNat (by omega), if_neg (by omega), if_neg (by omega), if_neg (by omega),
    if_neg (by omega), if_neg (by omega), if_neg (by omega), if_neg hlow, if_pos (by omega)]

end Lengths

/-- The bytes of a character are read as that character, whatever follows them. -/
theorem Step.whole (c : Char) : Step.Whole c := by
  by_cases h₁ : c.toNat ≤ 0x7F
  · exact Step.whole_one h₁
  by_cases h₂ : c.toNat ≤ 0x7FF
  · exact Step.whole_two (Nat.lt_of_not_le h₁) h₂
  by_cases h₃ : c.toNat ≤ 0xFFFF
  · exact Step.whole_three (Nat.lt_of_not_le h₂) h₃
  · exact Step.whole_four (Nat.lt_of_not_le h₃)

theorem lossyChars_encode (l : List Char) : lossyChars (l.flatMap String.utf8EncodeChar) = l := by
  induction l with
  | nil => rw [List.flatMap_nil, lossyChars]
  | cons c l ih =>
    obtain ⟨b, tail, hbytes, hstep⟩ := Step.whole c
    rw [List.flatMap_cons, hbytes, List.cons_append, lossyChars]
    simp only [hstep, Option.getD_some, List.drop_left, ih]

/-- Nothing in the bytes of a text is replaced. -/
theorem decodeLossy_encode (s : String) : decodeLossy (encode s) = s := by
  have hs : encode s = s.toList.flatMap String.utf8EncodeChar := by
    rw [← encode_ofList, String.ofList_toList]
  rw [decodeLossy, hs, lossyChars_encode, String.ofList_toList]

end EventRelay.Text.Utf8
