/-!
# Decimal numerals

Whole numbers as text: one or more ASCII digits, with a sign in front where the reader allows one.
Leading zeros count as digits, blanks and separators do not. Every number has one written form,
`Nat.repr` or `Int.repr`, and reading it gives the number back (`unsigned?_repr`, `signed?_repr`).

Readers of bounded numbers give nothing for a numeral out of their range; they never clamp or wrap.
-/

namespace EventRelay.Text.Numeral

/-- The value of a text of one or more digits. -/
def digits? (l : List Char) : Option Nat :=
  if l ≠ [] ∧ l.all Char.isDigit then some (Nat.ofDigitChars 10 l 0) else none

/-- The value of digits behind an optional plus. -/
def unsigned? : List Char → Option Nat
  | '+' :: l => digits? l
  | l => digits? l

/-- The value of digits behind an optional sign. -/
def signed? : List Char → Option Int
  | '-' :: l => (digits? l).map fun n => -(n : Int)
  | l => (unsigned? l).map Int.ofNat

/-- The value of an unsigned numeral below a bound. -/
def below? (bound : Nat) (s : String) : Option Nat :=
  (unsigned? s.toList).filter (· < bound)

/-- How many numbers a word of that many bits can hold. -/
def wordSize (bits : Nat) : Nat := Nat.pow 2 bits

/-- Whether a number fits 64 bits in two's complement. -/
def fits64 (z : Int) : Bool := -(wordSize 63 : Int) ≤ z && z < wordSize 63

/-- The value of a signed numeral that fits 64 bits. -/
def int64? (l : List Char) : Option Int := (signed? l).filter fits64

theorem digits?_toDigits (n : Nat) : digits? (Nat.toDigits 10 n) = some n := by
  have hd : (Nat.toDigits 10 n).all Char.isDigit = true :=
    List.all_eq_true.2 fun c hc => Nat.isDigit_of_mem_toDigits (by decide) (by decide) hc
  simp [digits?, hd, Nat.ofDigitChars_ten_toDigits]

/-- Reading the written form of a number gives the number back. -/
theorem unsigned?_repr (n : Nat) : unsigned? n.repr.toList = some n := by
  rw [Nat.repr_eq_ofList_toDigits, String.toList_ofList]
  have h := digits?_toDigits n
  -- a written form starts with a digit, so the reader sees no sign
  unfold unsigned?
  split
  · rename_i l hl
    have : Char.isDigit '+' = true :=
      Nat.isDigit_of_mem_toDigits (b := 10) (n := n) (by decide) (by decide) (by rw [hl]; simp)
    simp at this
  · exact h

theorem signed?_repr (z : Int) : signed? z.repr.toList = some z := by
  cases z with
  | ofNat n =>
    change signed? n.repr.toList = _
    have hread := unsigned?_repr n
    unfold signed?
    split
    · next l hl =>
      -- a sign in front would have been read as no number
      rw [hl] at hread
      simp [unsigned?, digits?] at hread
    · rw [hread]
      rfl
  | negSucc n =>
    change signed? ("-" ++ (n + 1).repr).toList = _
    rw [String.toList_append, Nat.toList_repr]
    change (digits? (Nat.toDigits 10 (n + 1))).map (fun n => -(n : Int)) = _
    rw [digits?_toDigits]
    rfl

end EventRelay.Text.Numeral
