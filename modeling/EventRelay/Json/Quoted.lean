import EventRelay.Json.Numeric

/-!
# Reading quoted JSON texts

The bytes of a text are gathered first, escapes replaced by the bytes they stand for, and only the
complete content is checked to be UTF-8. A pair of escapes for surrogates stands for one character;
a surrogate without its partner is refused.
-/

namespace EventRelay.Json.Quoted

/-- The value of a hexadecimal digit. -/
def hexDigit? (b : UInt8) : Option Nat :=
  if 0x30 ≤ b ∧ b ≤ 0x39 then some (b.toNat - 0x30)
  else if 0x41 ≤ b ∧ b ≤ 0x46 then some (b.toNat - 0x37)
  else if 0x61 ≤ b ∧ b ≤ 0x66 then some (b.toNat - 0x57)
  else none

/-- Reads the four digits of an escaped code unit. -/
def codeUnit (s : Bytes) : Except Fault (Taken Nat s) :=
  match s with
  | a :: b :: c :: d :: t =>
    match hexDigit? a, hexDigit? b, hexDigit? c, hexDigit? d with
    | some a, some b, some c, some d =>
      .ok ⟨((a * 16 + b) * 16 + c) * 16 + d, t, by simp; omega⟩
    | _, _, _, _ => .error ⟨.badEscape, t⟩
  | _ => .error ⟨.unfinishedText, []⟩

/-- Whether a code unit is the first of a surrogate pair. -/
def isLeading (n : Nat) : Bool := 0xD800 ≤ n && n ≤ 0xDBFF

/-- Whether a code unit is the second of a surrogate pair. -/
def isTrailing (n : Nat) : Bool := 0xDC00 ≤ n && n ≤ 0xDFFF

/-- The bytes of a code point. -/
def pointBytes (n : Nat) : Bytes := String.utf8EncodeChar (Char.ofNat n)

/-- Reads the second half of a surrogate pair, which is an escape of its own. -/
def secondHalf (leading : Nat) (s : Bytes) : Except Fault (Taken Bytes s) :=
  match s with
  | [] => .error ⟨.unfinishedText, []⟩
  | b :: t =>
    if b ≠ 0x5C then .error ⟨.unfinishedSurrogatePair, t⟩
    else
      match t with
      | [] => .error ⟨.unfinishedText, []⟩
      | c :: u =>
        if c ≠ 0x75 then .error ⟨.unfinishedSurrogatePair, u⟩
        else
          match codeUnit u with
          | .error f => .error f
          | .ok x =>
            if isTrailing x.value then
              let point := (leading - 0xD800) * 0x400 + (x.value - 0xDC00) + 0x10000
              .ok ⟨pointBytes point, x.rest, by have := x.shorter; simp; omega⟩
            else .error ⟨.loneSurrogate, x.rest⟩

/-- Reads an escaped code unit, or two that form a pair. -/
def unicode (s : Bytes) : Except Fault (Taken Bytes s) :=
  match codeUnit s with
  | .error f => .error f
  | .ok x =>
    if isTrailing x.value then .error ⟨.loneSurrogate, x.rest⟩
    else if isLeading x.value then
      match secondHalf x.value x.rest with
      | .error f => .error f
      | .ok y => .ok (y.of_le (Nat.le_of_lt x.shorter))
    else .ok ⟨pointBytes x.value, x.rest, x.shorter⟩

/-- The byte that a letter behind a backslash stands for. -/
def simpleEscape? (b : UInt8) : Option UInt8 :=
  if b = 0x22 then some 0x22
  else if b = 0x5C then some 0x5C
  else if b = 0x2F then some 0x2F
  else if b = 0x62 then some 0x08
  else if b = 0x66 then some 0x0C
  else if b = 0x6E then some 0x0A
  else if b = 0x72 then some 0x0D
  else if b = 0x74 then some 0x09
  else none

/-- Reads what stands behind a backslash. -/
def escape (s : Bytes) : Except Fault (Taken Bytes s) :=
  match s with
  | [] => .error ⟨.unfinishedText, []⟩
  | b :: t =>
    if b = 0x75 then
      match unicode t with
      | .error f => .error f
      | .ok x => .ok (x.of_le (by simp))
    else
      match simpleEscape? b with
      | some c => .ok ⟨[c], t, by simp⟩
      | none => .error ⟨.badEscape, t⟩

/-- Reads the content of a text up to its closing quote. -/
def content (s : Bytes) : Except Fault (Taken Bytes s) :=
  match s with
  | [] => .error ⟨.unfinishedText, []⟩
  | b :: t =>
    if b = 0x22 then .ok ⟨[], t, by simp⟩
    else if b = 0x5C then
      match escape t with
      | .error f => .error f
      | .ok x =>
        have : x.rest.length < (b :: t).length := by have := x.shorter; simp; omega
        match content x.rest with
        | .error f => .error f
        | .ok y => .ok ⟨x.value ++ y.value, y.rest, by have := y.shorter; omega⟩
    else if b < 0x20 then .error ⟨.controlCharacter, t⟩
    else
      match content t with
      | .error f => .error f
      | .ok y => .ok ⟨b :: y.value, y.rest, by have := y.shorter; simp; omega⟩
termination_by s.length
decreasing_by
  · exact this
  · simp only [List.length_cons]; omega

/-- Reads a text behind its opening quote. -/
def read (s : Bytes) : Except Fault (Taken String s) :=
  match content s with
  | .error f => .error f
  | .ok x =>
    match Text.Utf8.decode? x.value with
    | some t => .ok ⟨t, x.rest, x.shorter⟩
    | none => .error ⟨.badEncoding (x.value.length - Text.Utf8.validLength x.value), x.rest⟩

end EventRelay.Json.Quoted
