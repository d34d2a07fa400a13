import EventRelay.Decimal.Literal
import EventRelay.Proofs.Decimal.Rounding
import EventRelay.Proofs.Text.Numeral
import Mathlib.Data.List.TakeWhile

/-!
# Decimal literals are rounded to the nearest value

A literal of digits with or without a point is read with exactly the number that it writes
(`ofText?_digits`, `ofText?_fraction`), and its value is a nearest one of the format, however many
digits there are and however far from one their exponent is (`nearest_of_value?`); only past the
last finite value there is none (`overflow_le_of_value?`).
-/

namespace EventRelay.Decimal

open Text.Numeral (Sign)

namespace Literal

/-- The number that a literal writes, without its sign. -/
def magnitude (x : Literal) : ℚ := x.digits * 10 ^ x.exponent

/-- A sign is read off a literal that goes on with a digit. -/
theorem ofText?_append {c : Char} {l : List Char} (hc : c.isDigit = true) (s : Sign) :
    ofText? (s.text ++ c :: l) = unsigned? s.negative (c :: l) := by
  cases s with
  | minus => rfl
  | plus => rfl
  | absent =>
    change ofText? (c :: l) = _
    unfold ofText?
    split
    · next heq =>
      cases heq
      cases hc
    · next heq =>
      cases heq
      cases hc
    · rfl

section Reading

variable {digits whole fraction : List Char} {n w f : ℕ}

theorem mantissa_digits (h : Text.Numeral.Decimal digits n) :
    mantissa digits = (digits, [], []) := by
  have hall : ∀ c ∈ digits, Char.isDigit c = true := h.isDigit
  rw [mantissa, List.takeWhile_eq_self_iff.2 hall, List.dropWhile_eq_nil_iff.2 hall]

theorem mantissa_fraction (hw : Text.Numeral.Decimal whole w)
    (hf : Text.Numeral.Decimal fraction f) :
    mantissa (whole ++ '.' :: fraction) = (whole, fraction, []) := by
  have hwhole : ∀ c ∈ whole, Char.isDigit c = true := hw.isDigit
  have hfraction : ∀ c ∈ fraction, Char.isDigit c = true := hf.isDigit
  have hpoint : ¬ Char.isDigit '.' = true := by decide
  rw [mantissa, List.takeWhile_append_of_pos hwhole, List.dropWhile_append_of_pos hwhole,
    List.takeWhile_cons_of_neg hpoint, List.dropWhile_cons_of_neg hpoint, List.append_nil]
  change (whole, fraction.takeWhile Char.isDigit, fraction.dropWhile Char.isDigit) = _
  rw [List.takeWhile_eq_self_iff.2 hfraction, List.dropWhile_eq_nil_iff.2 hfraction]

theorem ofText?_digits (h : Text.Numeral.Decimal digits n) (s : Sign) :
    ofText? (s.text ++ digits) = some ⟨s.negative, n, 0⟩ := by
  obtain ⟨c, l, rfl⟩ := List.exists_cons_of_ne_nil h.ne_nil
  rw [ofText?_append (h.isDigit c List.mem_cons_self), unsigned?, mantissa_digits h]
  simp [h.value]

theorem ofText?_fraction (hw : Text.Numeral.Decimal whole w)
    (hf : Text.Numeral.Decimal fraction f) (s : Sign) :
    ofText? (s.text ++ (whole ++ '.' :: fraction)) =
      some ⟨s.negative, w * 10 ^ fraction.length + f, -fraction.length⟩ := by
  have hmantissa := mantissa_fraction hw hf
  have hvalue : Nat.ofDigitChars 10 (whole ++ fraction) 0 = w * 10 ^ fraction.length + f := by
    rw [Nat.ofDigitChars_append, Nat.ofDigitChars_eq_ofDigitChars_zero, hw.value, hf.value,
      mul_comm]
  obtain ⟨c, l, rfl⟩ := List.exists_cons_of_ne_nil hw.ne_nil
  rw [List.cons_append, ofText?_append (hw.isDigit c List.mem_cons_self), ← List.cons_append,
    unsigned?, hmantissa]
  simp only [hvalue, if_neg (fun h : c :: l = [] ∧ fraction = [] => hw.ne_nil h.1)]

end Reading

/-! ## The value of a literal -/

theorem two_zpow_le_ten_zpow (n : ℕ) : (2 : ℚ) ^ (3 * n : ℤ) ≤ 10 ^ (n : ℤ) := by
  rw [zpow_mul, zpow_natCast, zpow_natCast]
  exact pow_le_pow_left₀ (by positivity) (by norm_num) n

/-- The value of a literal is the one of the format that is nearest to the number written. -/
theorem nearest_of_value? {x : Literal} {y : Binary64} (h : x.value? = some y) :
    y.negative = x.negative ∧ Binary64.Nearest x.magnitude y := by
  unfold value? at h
  dsimp only at h
  split at h
  · next hsmall =>
    cases h
    refine ⟨rfl, Binary64.nearest_zero _ ?_ ?_⟩
    · unfold magnitude
      positivity
    rcases hsmall with hdigits | hsize
    · rw [magnitude, hdigits, Nat.cast_zero, zero_mul]
      positivity
    · calc x.magnitude < 10 ^ ((Nat.toDigits 10 x.digits).length + x.exponent) := lt_ten_zpow _ _
        _ ≤ (10 : ℚ) ^ (-400 : ℤ) := zpow_le_zpow_right₀ (by norm_num) (by omega)
        _ ≤ (2 : ℚ) ^ (-(3 * 400) : ℤ) := by
          rw [zpow_neg, zpow_neg]
          exact inv_anti₀ (by positivity) (two_zpow_le_ten_zpow 400)
        _ ≤ 2 ^ (-1075 : ℤ) := zpow_le_zpow_right₀ (by norm_num) (by omega)
  · split at h
    · cases h
    · rw [magnitude, ← div_tenTo]
      exact Binary64.nearest_of_round (tenTo_pos _) h

/-- A literal without a value writes a number past the last one of the format. -/
theorem overflow_le_of_value? {x : Literal} (h : x.value? = none) :
    (2 ^ 53 - 1 / 2) * (2 : ℚ) ^ (971 : ℤ) ≤ x.magnitude := by
  unfold value? at h
  dsimp only at h
  split at h
  · cases h
  · next hsmall =>
    split at h
    · next hlarge =>
      calc (2 ^ 53 - 1 / 2) * (2 : ℚ) ^ (971 : ℤ) ≤ 2 ^ (53 : ℤ) * 2 ^ (971 : ℤ) :=
            mul_le_mul_of_nonneg_right (by norm_num) (by positivity)
        _ = 2 ^ (53 + 971 : ℤ) := (zpow_add₀ two_ne_zero _ _).symm
        _ ≤ 2 ^ (3 * 400 : ℤ) := zpow_le_zpow_right₀ (by norm_num) (by omega)
        _ ≤ 10 ^ (400 : ℤ) := two_zpow_le_ten_zpow 400
        _ ≤ 10 ^ ((Nat.toDigits 10 x.digits).length + x.exponent - 1) :=
          zpow_le_zpow_right₀ (by norm_num) (by omega)
        _ ≤ x.magnitude := ten_zpow_le (fun hdigits => hsmall (.inl hdigits)) _
    · rw [magnitude, ← div_tenTo]
      exact Binary64.overflow_le_of_round (tenTo_pos _) h

end Literal

end EventRelay.Decimal
