/-!
# Bytes and text

The wire carries bytes, the domain speaks of text. `encode` and `decode?` are the two directions of
UTF-8, and `decode?_eq_some_iff` says that they are inverse to each other: a byte list is read as a
text exactly when it is the encoding of that text, so nothing is lost or guessed.

Bytes that are no UTF-8 still have to be shown. `decodeLossy` replaces each maximal part that could
have begun a character by U+FFFD, and `validLength` is the number of bytes in front of the first
such part. Both read off the same step, `Step.ofBytes`, which follows the table of well-formed
sequences: the first byte fixes how many bytes follow and in which range each of them lies.
-/

namespace EventRelay

/-- The bytes of a request body, of a message or of a stream. -/
abbrev Bytes := List UInt8

namespace Text.Utf8

/-- The bytes of a text. -/
def encode (s : String) : Bytes := s.toByteArray.data.toList

/-- The text that the bytes encode, if they are well-formed. -/
def decode? (bytes : Bytes) : Option String := String.fromUTF8? ⟨bytes.toArray⟩

theorem decode?_encode (s : String) : decode? (encode s) = some s := by
  simp only [decode?, encode, Array.toArray_toList]
  unfold String.fromUTF8?
  rw [dif_pos s.isValidUTF8]
  rfl

theorem decode?_eq_some_iff {bytes : Bytes} {s : String} :
    decode? bytes = some s ↔ bytes = encode s := by
  constructor
  · intro h
    simp only [decode?] at h
    unfold String.fromUTF8? at h
    split at h
    · cases h; rfl
    · cases h
  · rintro rfl; exact decode?_encode s

/-- The ranges of the bytes that follow a first byte in a well-formed sequence, or nothing for a
byte that begins none. Only the second byte has a range that depends on the first: it keeps out
overlong forms, surrogates and values past the last code point. -/
def followers (b : UInt8) : Option (List (UInt8 × UInt8)) :=
  if b < 0x80 then some []
  else if b < 0xC2 then none
  else if b < 0xE0 then some [(0x80, 0xBF)]
  else if b = 0xE0 then some [(0xA0, 0xBF), (0x80, 0xBF)]
  else if b = 0xED then some [(0x80, 0x9F), (0x80, 0xBF)]
  else if b < 0xF0 then some [(0x80, 0xBF), (0x80, 0xBF)]
  else if b = 0xF0 then some [(0x90, 0xBF), (0x80, 0xBF), (0x80, 0xBF)]
  else if b < 0xF4 then some [(0x80, 0xBF), (0x80, 0xBF), (0x80, 0xBF)]
  else if b = 0xF4 then some [(0x80, 0x8F), (0x80, 0xBF), (0x80, 0xBF)]
  else none

/-- The longest run of bytes at the front that fits the ranges, one byte a range. -/
def matching : List (UInt8 × UInt8) → Bytes → Bytes
  | r :: rs, b :: bytes => if r.1 ≤ b ∧ b ≤ r.2 then b :: matching rs bytes else []
  | _, _ => []

/-- The code point of a first byte with the bytes that follow it: seven, five, four or three bits of
the first byte, then six bits of each other. -/
def codePoint (b : UInt8) (tail : Bytes) : Nat :=
  let front :=
    match tail.length with
    | 0 => b.toNat
    | 1 => b.toNat % 32
    | 2 => b.toNat % 16
    | _ => b.toNat % 8
  tail.foldl (fun n c => n * 64 + c.toNat % 64) front

/-- What stands at the front of a byte list: a character or a part that is none, with the number of
bytes it takes beyond the first. -/
structure Step where
  /-- The character, absent where the bytes encode none. -/
  char : Option Char
  /-- How many bytes are taken beyond the first. -/
  more : Nat

/-- Reads one character, or the longest part that could have begun one. -/
def Step.ofBytes (b : UInt8) (rest : Bytes) : Step :=
  match followers b with
  | none => ⟨none, 0⟩
  | some ranges =>
    let tail := matching ranges rest
    if tail.length = ranges.length then ⟨some (Char.ofNat (codePoint b tail)), tail.length⟩
    else ⟨none, tail.length⟩

/-- The text of arbitrary bytes, each part that encodes no character shown as U+FFFD. -/
def lossyChars : Bytes → List Char
  | [] => []
  | b :: rest =>
    let step := Step.ofBytes b rest
    step.char.getD (Char.ofNat 0xFFFD) :: lossyChars (rest.drop step.more)
termination_by bytes => bytes.length
decreasing_by simp only [List.length_drop, List.length_cons]; omega

/-- The text of arbitrary bytes, each part that encodes no character shown as U+FFFD. -/
def decodeLossy (bytes : Bytes) : String := String.ofList (lossyChars bytes)

/-- How many bytes at the front are well-formed. -/
def validLength : Bytes → Nat
  | [] => 0
  | b :: rest =>
    let step := Step.ofBytes b rest
    if step.char.isNone then 0 else step.more + 1 + validLength (rest.drop step.more)
termination_by bytes => bytes.length
decreasing_by simp only [List.length_drop, List.length_cons]; omega

example : decodeLossy [0x61, 0xE2, 0x82, 0x62, 0xF0, 0x9F, 0x98, 0x80] = "a\uFFFDb😀" := by
  simp [decodeLossy, lossyChars, Step.ofBytes, followers, matching, codePoint]

end Text.Utf8

end EventRelay
