import EventRelay.Text.Blank
import EventRelay.Text.LetterCase.Table

/-!
# Lower case

Two ways to forget the case of letters. `lowercase` is the full mapping of Unicode, in which one
character may become two and the form of a sigma depends on its neighbours: it is what the name of a
transport and a log level are brought to before they are compared. `asciiLower` moves the 26 letters
of ASCII only: it is how names of HTTP headers are compared, since no character outside ASCII
belongs to such a name.
-/

namespace EventRelay.Text

open LetterCase in
/-- The lower-case partner of a code point, itself where it has none. -/
def lowerPoint (n : Nat) : Nat :=
  match lowerRuns.find? fun r => r.first ≤ n && n ≤ r.last && (n - r.first) % r.step == 0 with
  | some r => ((n : Int) + r.shift).toNat
  | none => n

/-- The lower-case form of a character. The capital I with a dot is the one character whose form has
two characters: an `i` and the dot above. -/
def lowerChar (c : Char) : List Char :=
  if c.toNat = 0x130 then ['i', Char.ofNat 0x307] else [Char.ofNat (lowerPoint c.toNat)]

/-- Whether the first character that is not skipped has a case. -/
def caseFollows (l : List Char) : Bool :=
  match l.find? fun c => !inRanges LetterCase.ignorableRanges c.toNat with
  | some c => inRanges LetterCase.casedRanges c.toNat
  | none => false

/-- Lower-cases what stands behind `before`, which is kept last character first. A capital sigma
becomes the final form when it closes a word. -/
def lowerAfter (before : List Char) : List Char → List Char
  | [] => []
  | c :: rest =>
    let lowered :=
      if c = 'Σ' then
        if caseFollows before && !caseFollows rest then ['ς'] else ['σ']
      else lowerChar c
    lowered ++ lowerAfter (c :: before) rest

/-- The full lower-case mapping of a text. -/
def lowercase (s : String) : String := String.ofList (lowerAfter [] s.toList)

/-- Moves a capital letter of ASCII to its small form. -/
def asciiLowerChar (c : Char) : Char :=
  if 'A' ≤ c ∧ c ≤ 'Z' then Char.ofNat (c.toNat + 32) else c

/-- The text with the capital letters of ASCII moved to their small form. -/
def asciiLower (s : String) : String := String.ofList (s.toList.map asciiLowerChar)

example : lowercase "ΑΣ ΣΑ" = "ας σα" := by decide +kernel

example : asciiLower "Content-Length" = "content-length" := by decide +kernel

end EventRelay.Text
