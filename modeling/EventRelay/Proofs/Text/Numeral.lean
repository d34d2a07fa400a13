import EventRelay.Text.Numeral
import Mathlib.Algebra.Group.Int.Defs
import Mathlib.Algebra.Group.Nat.Defs

/-!
# What the readers of numerals accept

A reader of unsigned numerals accepts one or more decimal digits, with a plus in front or not, and
nothing else; the number is the value of the digits (`unsigned?_eq_some_iff`). Of all the digits
that write a number, those of its written form are the fewest (`Decimal.length_toDigits_le`).

A reader of signed numerals gives the number with its sign (`signed?_of_decimal`), and one whose
numbers fit 64 bits gives it exactly within that range (`int64?_of_decimal`).
-/

namespace EventRelay.Text.Numeral

/-- One or more decimal digits, and the number that they write. -/
structure Decimal (digits : List Char) (n : Nat) : Prop where
  ne_nil : digits ≠ []
  isDigit : ∀ c ∈ digits, c.isDigit = true
  value : Nat.ofDigitChars 10 digits 0 = n

theorem ofDigitChars_lt {digits : List Char} (h : ∀ c ∈ digits, c.isDigit = true) :
    Nat.ofDigitChars 10 digits 0 < 10 ^ digits.length := by
  induction digits with
  | nil => exact Nat.one_pos
  | cons c digits ih =>
    have hc : c.toNat ≤ 57 := (Char.isDigit_iff_toNat.1 (h c List.mem_cons_self)).2
    have hrest := ih fun c' hc' => h c' (List.mem_cons_of_mem _ hc')
    have hfirst : 10 ^ digits.length * (c.toNat - 48) ≤ 10 ^ digits.length * 9 :=
      Nat.mul_le_mul_left _ (by omega)
    rw [Nat.ofDigitChars_cons, Nat.ofDigitChars_eq_ofDigitChars_zero, List.length_cons,
      Nat.pow_succ, Nat.mul_zero, Nat.zero_add]
    change 10 ^ digits.length * (c.toNat - 48) + _ < _
    omega

/-- No digits that write a number are fewer than those of its written form. -/
theorem Decimal.length_toDigits_le {digits : List Char} {n : Nat} (h : Decimal digits n) :
    (Nat.toDigits 10 n).length ≤ digits.length := by
  have hpos : 0 < digits.length := List.length_pos_iff.2 h.ne_nil
  rw [Nat.length_toDigits_le_iff (by decide) hpos, ← h.value]
  exact ofDigitChars_lt h.isDigit

theorem digits?_eq_some_iff {l : List Char} {n : Nat} : digits? l = some n ↔ Decimal l n := by
  unfold digits?
  split
  · next h =>
    rw [Option.some.injEq]
    exact ⟨fun hvalue => ⟨h.1, List.all_eq_true.1 h.2, hvalue⟩, Decimal.value⟩
  · next h =>
    refine iff_of_false nofun fun hdecimal => h ⟨hdecimal.ne_nil, ?_⟩
    exact List.all_eq_true.2 hdecimal.isDigit

theorem not_decimal_plus {l : List Char} {n : Nat} : ¬ Decimal ('+' :: l) n := by
  intro h
  exact absurd (h.isDigit '+' List.mem_cons_self) (by decide)

theorem unsigned?_eq_some_iff {l : List Char} {n : Nat} :
    unsigned? l = some n ↔ ∃ digits, Decimal digits n ∧ (l = digits ∨ l = '+' :: digits) := by
  unfold unsigned?
  split
  · next l =>
    rw [digits?_eq_some_iff]
    constructor
    · exact fun h => ⟨l, h, .inr rfl⟩
    · rintro ⟨digits, h, rfl | heq⟩
      · exact absurd h not_decimal_plus
      · obtain rfl := (List.cons.inj heq).2
        exact h
  · next hplus =>
    rw [digits?_eq_some_iff]
    constructor
    · exact fun h => ⟨l, h, .inl rfl⟩
    · rintro ⟨digits, h, rfl | rfl⟩
      · exact h
      · exact absurd rfl (hplus digits)

theorem wordSize_eq (bits : ℕ) : wordSize bits = 2 ^ bits := rfl

theorem fits64_iff {z : ℤ} : fits64 z = true ↔ -2 ^ 63 ≤ z ∧ z < 2 ^ 63 := by
  rw [fits64, Bool.and_eq_true, decide_eq_true_eq, decide_eq_true_eq, wordSize_eq]
  omega

/-! ## Signs -/

/-- The ways to put a sign in front of digits. -/
inductive Sign where
  | absent
  | plus
  | minus

namespace Sign

/-- How a sign is written. -/
def text : Sign → List Char
  | absent => []
  | plus => ['+']
  | minus => ['-']

/-- Whether a sign makes the number negative. -/
def negative : Sign → Bool
  | minus => true
  | _ => false

/-- The number with its sign. -/
def apply (s : Sign) (n : ℕ) : ℤ := if s.negative then -n else n

@[simp] theorem natAbs_apply (s : Sign) (n : ℕ) : (s.apply n).natAbs = n := by
  unfold apply
  split <;> omega

@[simp] theorem apply_eq_zero_iff {s : Sign} {n : ℕ} : s.apply n = 0 ↔ n = 0 := by
  rw [← Int.natAbs_eq_zero, natAbs_apply]

end Sign

theorem Decimal.not_mem {digits : List Char} {n : ℕ} (h : Decimal digits n) {c : Char}
    (hc : c.isDigit = false) : c ∉ digits := by
  intro hmem
  rw [h.isDigit c hmem] at hc
  cases hc

theorem signed?_of_decimal {digits : List Char} {n : ℕ} (h : Decimal digits n) (s : Sign) :
    signed? (s.text ++ digits) = some (s.apply n) := by
  have hread : digits? digits = some n := digits?_eq_some_iff.2 h
  cases s with
  | minus =>
    change (digits? digits).map (fun n => -(n : ℤ)) = _
    rw [hread]
    rfl
  | plus =>
    change (digits? digits).map Int.ofNat = _
    rw [hread]
    rfl
  | absent =>
    have hplain : unsigned? digits = some n := unsigned?_eq_some_iff.2 ⟨digits, h, .inl rfl⟩
    change signed? digits = _
    unfold signed?
    split
    · exact absurd List.mem_cons_self (h.not_mem (c := '-') rfl)
    · rw [hplain]
      rfl

theorem int64?_of_decimal {digits : List Char} {n : ℕ} (h : Decimal digits n) (s : Sign) :
    int64? (s.text ++ digits) =
      if -2 ^ 63 ≤ s.apply n ∧ s.apply n < 2 ^ 63 then some (s.apply n) else none := by
  rw [int64?, signed?_of_decimal h, Option.filter_some]
  by_cases hfits : -2 ^ 63 ≤ s.apply n ∧ s.apply n < 2 ^ 63
  · rw [if_pos (fits64_iff.2 hfits), if_pos hfits]
  · rw [if_neg (mt fits64_iff.1 hfits), if_neg hfits]

theorem signed?_eq_none_of_mem {l : List Char} {c : Char} (hc : c ∈ l)
    (hdigit : c.isDigit = false) (hsign : c ≠ '-' ∧ c ≠ '+') : signed? l = none := by
  have hnone {l : List Char} (hc : c ∈ l) : digits? l = none := by
    rw [digits?, if_neg]
    rintro ⟨-, hall⟩
    rw [List.all_eq_true.1 hall c hc] at hdigit
    cases hdigit
  have hrest {s : Char} {l : List Char} (hs : c ≠ s) (hc : c ∈ s :: l) : c ∈ l :=
    (List.mem_cons.1 hc).resolve_left hs
  unfold signed?
  split
  · rw [hnone (hrest hsign.1 hc)]
    rfl
  · unfold unsigned?
    split
    · rw [hnone (hrest hsign.2 hc), Option.map_none]
    · rw [hnone hc, Option.map_none]

end EventRelay.Text.Numeral
