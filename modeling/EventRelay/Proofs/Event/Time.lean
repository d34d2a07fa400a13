import EventRelay.Event.Time
import EventRelay.Proofs.Decimal.Literal
import EventRelay.Proofs.Decimal.Shortest
import EventRelay.Proofs.Json.Integer

/-!
# Which times are exact

Integers are exact over the whole range of instants, as JSON literals and as text, and outside of it
nothing is reported (`resolve_integer`). What fits no instant goes through binary64 values on the
way, and it stays out of the range there: the bounds are values of the format, and rounding crosses
no such value.

Decimal text is rounded to the nearest binary64 value before its fraction is cut off, so what is cut
is not always what was written (`resolve_decimal`). It is wherever the format can tell the text from
the next whole number, and that is where below 2^53 the text leaves at least one part in 2^53.
-/

namespace EventRelay.EventTime

open Decimal (Binary64 Layout Literal)
open Text.Numeral (Sign int64? signed?)

variable {s : String} {sign : Sign} {z default : ℤ}

/-! ## Numbers -/

/-- No instant comes of a large value: it is written with an exponent. -/
theorem withoutPoint?_of_large {x : Binary64} (h : 2 * 10 ^ 16 ≤ x.magnitude) :
    withoutPoint? x = none := by
  have he : 'e' ∈ plainTime.text x := by
    have hmem : 'e' ∈ plainTime.magnitude x := by
      apply Layout.mem_magnitude_of_large
      change 2 * (10 : ℚ) ^ (16 : ℤ) ≤ x.magnitude
      exact_mod_cast h
    unfold Layout.text
    split
    · exact List.mem_cons_of_mem _ hmem
    · exact hmem
  have hsigned : signed? ((plainTime.text x).filter (· != '.')) = none :=
    Text.Numeral.signed?_eq_none_of_mem (List.mem_filter.2 ⟨he, rfl⟩) rfl (by decide)
  rw [withoutPoint?, int64?, hsigned]
  rfl

theorem usable?_number {x : Json.Number} (h : Json.OfInteger z x) :
    usable? (.number x) = if -2 ^ 63 ≤ z ∧ z < 2 ^ 63 then some z else none := by
  cases h with
  | exact => simp only [usable?, Json.int64?, Text.Numeral.fits64_iff]
  | zero hz =>
    rw [hz, if_pos (by decide)]
    decide +kernel
  | large hz hx =>
    rw [if_neg hz]
    refine withoutPoint?_of_large (le_trans ?_ hx)
    norm_num

/-! ## Text -/

theorem resolve_text {p : Prop} [Decidable p] (h : ofText? s = if p then some z else none) :
    resolve (some (.text s)) default =
      if z ≠ 0 ∧ p then reported z else generated default := by
  have husable : usable? (.text s) = if z ≠ 0 ∧ p then some z else none := by
    rw [usable?, h]
    by_cases hp : p
    · rw [if_pos hp, Option.filter_some]
      simp only [hp, and_true, decide_eq_true_eq]
    · rw [if_neg hp, if_neg fun hboth => hp hboth.2]
      rfl
  rw [resolve, Option.bind_some, husable]
  by_cases hboth : z ≠ 0 ∧ p
  · rw [if_pos hboth, if_pos hboth]
  · rw [if_neg hboth, if_neg hboth]

section Literal

variable {l : Literal}

/-- What is no integer within the range is rounded, and then its fraction is cut off. -/
theorem ofText?_literal (hinteger : int64? (Text.trim s).toList = none)
    (hliteral : Literal.ofText? (Text.trim s).toList = some l)
    (hsign : l.negative = sign.negative) :
    ofText? s = l.value?.bind fun x =>
      if ⌊x.magnitude⌋₊ < 2 ^ 63 then some (sign.apply ⌊x.magnitude⌋₊) else none := by
  have htruncate {x : Binary64} (hx : l.value? = some x) :
      x.truncate = sign.apply ⌊x.magnitude⌋₊ := by
    rw [Binary64.truncate_eq, (Literal.nearest_of_value? hx).1, hsign, Sign.apply]
  unfold ofText?
  dsimp only
  rw [hinteger, hliteral, Option.bind_some]
  cases hx : l.value? with
  | none => rfl
  | some x =>
    simp only [htruncate hx, Sign.natAbs_apply, Text.Numeral.wordSize_eq, Option.bind_some]

theorem two_pow_63_isFinite : Binary64.IsFinite (2 ^ 63) :=
  ⟨1, 63, by decide, by decide, by decide, by norm_num⟩

/-- Past the range nothing is reported: rounding does not lead back into it. -/
theorem ofText?_of_large (hinteger : int64? (Text.trim s).toList = none)
    (hliteral : Literal.ofText? (Text.trim s).toList = some l) (hlarge : 2 ^ 63 ≤ l.magnitude) :
    ofText? s = none := by
  have hsign : ∃ sign : Sign, l.negative = sign.negative := by
    cases l.negative with
    | true => exact ⟨.minus, rfl⟩
    | false => exact ⟨.absent, rfl⟩
  obtain ⟨sign, hsign⟩ := hsign
  rw [ofText?_literal hinteger hliteral hsign, Option.bind_eq_none_iff]
  intro x hx
  have hx := (Literal.nearest_of_value? hx).2.le_magnitude two_pow_63_isFinite hlarge
  refine if_neg (not_lt.2 (Nat.le_floor ?_))
  exact_mod_cast hx

theorem ofText?_of_small (hinteger : int64? (Text.trim s).toList = none)
    (hliteral : Literal.ofText? (Text.trim s).toList = some l) (hsign : l.negative = sign.negative)
    (hsmall : l.magnitude < 2 ^ 63) :
    ∃ x, Binary64.Nearest l.magnitude x ∧
      ofText? s = if ⌊x.magnitude⌋₊ < 2 ^ 63 then some (sign.apply ⌊x.magnitude⌋₊) else none := by
  cases hx : l.value? with
  | none =>
    have hoverflow := Literal.overflow_le_of_value? hx
    have hbound : (2 : ℚ) ^ 63 ≤ (2 ^ 53 - 1 / 2) * 2 ^ (971 : ℤ) := by
      have hpower : (2 : ℚ) ^ (63 : ℤ) ≤ 2 ^ (971 : ℤ) :=
        zpow_le_zpow_right₀ (by norm_num) (by norm_num)
      rw [zpow_ofNat] at hpower
      have hone : (1 : ℚ) ≤ 2 ^ 53 - 1 / 2 := by norm_num
      exact hpower.trans (le_mul_of_one_le_left (by positivity) hone)
    exact absurd hsmall (not_lt.2 (hbound.trans hoverflow))
  | some x =>
    refine ⟨x, (Literal.nearest_of_value? hx).2, ?_⟩
    rw [ofText?_literal hinteger hliteral hsign, hx, Option.bind_some]

end Literal

/-! ## Integers -/

theorem ofText?_integer {digits : List Char} {n : ℕ}
    (hs : (Text.trim s).toList = sign.text ++ digits) (hdigits : Text.Numeral.Decimal digits n) :
    ofText? s =
      if -2 ^ 63 ≤ sign.apply n ∧ sign.apply n < 2 ^ 63 then some (sign.apply n) else none := by
  have hinteger := Text.Numeral.int64?_of_decimal hdigits sign
  rw [← hs] at hinteger
  by_cases hrange : -2 ^ 63 ≤ sign.apply n ∧ sign.apply n < 2 ^ 63
  · rw [if_pos hrange] at hinteger ⊢
    unfold ofText?
    dsimp only
    rw [hinteger]
  · rw [if_neg hrange] at hinteger ⊢
    have hliteral : Literal.ofText? (Text.trim s).toList = some ⟨sign.negative, n, 0⟩ := by
      rw [hs, Literal.ofText?_digits hdigits]
    have hn : 2 ^ 63 ≤ n := by
      unfold Sign.apply at hrange
      split at hrange <;> omega
    refine ofText?_of_large hinteger hliteral ?_
    rw [Literal.magnitude, zpow_zero, mul_one]
    exact_mod_cast hn

/-- An integer is reported exactly if it is an instant, and otherwise not at all. Text must not say
zero. -/
theorem resolve_integer (default : ℤ) :
    (∀ literal z depth rest v, Json.IntegerLiteral literal z →
      Json.Takes (Json.value depth) (literal ++ rest) v rest →
      resolve (some v) default =
        if -2 ^ 63 ≤ z ∧ z < 2 ^ 63 then reported z else generated default) ∧
    (∀ (s : String) (sign : Sign) (digits : List Char) (n : ℕ),
      (Text.trim s).toList = sign.text ++ digits → Text.Numeral.Decimal digits n →
      resolve (some (.text s)) default =
        if sign.apply n ≠ 0 ∧ -2 ^ 63 ≤ sign.apply n ∧ sign.apply n < 2 ^ 63 then
          reported (sign.apply n)
        else generated default) := by
  refine ⟨?_, fun s sign digits n hs hdigits => resolve_text (ofText?_integer hs hdigits)⟩
  intro literal z depth rest v hliteral htakes
  obtain ⟨x, rfl, hx⟩ := Json.ofInteger_of_takes hliteral htakes
  rw [resolve, Option.bind_some, usable?_number hx]
  by_cases hrange : -2 ^ 63 ≤ z ∧ z < 2 ^ 63
  · rw [if_pos hrange, if_pos hrange]
  · rw [if_neg hrange, if_neg hrange]

/-- The largest instant as text, and the number behind it, as text and as a literal. -/
theorem resolve_integer_bounds :
    resolve (some (.text " +9223372036854775807 ")) 5 = reported 9223372036854775807 ∧
      resolve (some (.text "9223372036854775808")) 5 = generated 5 ∧
      ∃ v, Json.Takes (Json.value 0) (Text.Utf8.encode "9223372036854775808" ++ []) v [] ∧
        resolve (some v) 5 = generated 5 := by
  obtain ⟨hliteral, htext⟩ := resolve_integer 5
  have hlast : Text.Numeral.Decimal "9223372036854775807".toList (2 ^ 63 - 1) :=
    Text.Numeral.digits?_eq_some_iff.1 (by decide)
  have hnext : Text.Numeral.Decimal "9223372036854775808".toList (2 ^ 63) :=
    Text.Numeral.digits?_eq_some_iff.1 (by decide)
  have hbytes : Json.IntegerLiteral (Text.Utf8.encode "9223372036854775808") (2 ^ 63) :=
    .signed false hnext (by decide)
  have hends : Json.Numeric.EndsNumber [] := nofun
  obtain ⟨x, htakes, -⟩ := Json.takes_integer hbytes (by decide) hends 0
  refine ⟨?_, ?_, .number x, htakes, ?_⟩
  · rw [htext " +9223372036854775807 " .plus _ _ (by decide) hlast]
    decide
  · rw [htext "9223372036854775808" .absent _ _ (by decide) hnext]
    decide
  · rw [hliteral _ _ 0 [] _ hbytes htakes]
    decide

/-! ## Decimals -/

/-- The number that digits before a point and digits behind it write. -/
def written (whole fraction places : ℕ) : ℚ := whole + fraction / 10 ^ places

section Written

variable {whole fraction : List Char} {w f : ℕ}

theorem literal_of_fraction (hs : (Text.trim s).toList = sign.text ++ (whole ++ '.' :: fraction))
    (hw : Text.Numeral.Decimal whole w) (hf : Text.Numeral.Decimal fraction f) :
    int64? (Text.trim s).toList = none ∧ ∃ l, Literal.ofText? (Text.trim s).toList = some l ∧
      l.negative = sign.negative ∧ l.magnitude = written w f fraction.length := by
  have hpoint : '.' ∈ sign.text ++ (whole ++ '.' :: fraction) := by simp
  have hsigned := Text.Numeral.signed?_eq_none_of_mem hpoint rfl (by decide)
  rw [hs]
  refine ⟨by rw [int64?, hsigned]; rfl, _, Literal.ofText?_fraction hw hf sign, rfl, ?_⟩
  rw [Literal.magnitude, written, zpow_neg, zpow_natCast]
  push_cast
  field_simp

theorem floor_written (hf : Text.Numeral.Decimal fraction f) (w : ℕ) :
    ⌊written w f fraction.length⌋₊ = w := by
  have hlt : (f : ℚ) < 10 ^ fraction.length := by
    rw [← hf.value]
    exact_mod_cast Text.Numeral.ofDigitChars_lt hf.isDigit
  have hfraction : (f : ℚ) / 10 ^ fraction.length < 1 := (div_lt_one (by positivity)).2 hlt
  have hnonneg : (0 : ℚ) ≤ f / 10 ^ fraction.length := by positivity
  rw [written, Nat.floor_eq_iff (by positivity)]
  exact ⟨by linarith, by linarith⟩

/-- A decimal is rounded to the nearest binary64 value, and that value without its fraction is what
is reported, unless it is zero or no instant. Below 2^53 this is the whole part of what was written,
if one part in 2^53 is left to the next whole number. -/
theorem resolve_decimal (hs : (Text.trim s).toList = sign.text ++ (whole ++ '.' :: fraction))
    (hw : Text.Numeral.Decimal whole w) (hf : Text.Numeral.Decimal fraction f) (default : ℤ) :
    (2 ^ 63 ≤ written w f fraction.length → resolve (some (.text s)) default = generated default) ∧
    (written w f fraction.length < 2 ^ 63 →
      ∃ x, Binary64.Nearest (written w f fraction.length) x ∧
        resolve (some (.text s)) default =
          if ⌊x.magnitude⌋₊ ≠ 0 ∧ ⌊x.magnitude⌋₊ < 2 ^ 63 then
            reported (sign.apply ⌊x.magnitude⌋₊)
          else generated default) ∧
    (w < 2 ^ 53 → written w f fraction.length ≤ (w + 1) * (1 - 1 / 2 ^ 53) →
      resolve (some (.text s)) default =
        if ⌊written w f fraction.length⌋₊ = 0 then generated default
        else reported (sign.apply ⌊written w f fraction.length⌋₊)) := by
  rw [floor_written hf]
  obtain ⟨hinteger, l, hliteral, hsign, hmagnitude⟩ := literal_of_fraction hs hw hf
  rw [← hmagnitude]
  have hsmall (hlt : l.magnitude < 2 ^ 63) : ∃ x, Binary64.Nearest l.magnitude x ∧
      resolve (some (.text s)) default =
        if ⌊x.magnitude⌋₊ ≠ 0 ∧ ⌊x.magnitude⌋₊ < 2 ^ 63 then
          reported (sign.apply ⌊x.magnitude⌋₊)
        else generated default := by
    obtain ⟨x, hx, hread⟩ := ofText?_of_small hinteger hliteral hsign hlt
    refine ⟨x, hx, ?_⟩
    rw [resolve_text hread]
    simp only [ne_eq, Sign.apply_eq_zero_iff]
  refine ⟨fun hlarge => ?_, hsmall, fun hw53 hroom => ?_⟩
  · rw [resolve, Option.bind_some, usable?, ofText?_of_large hinteger hliteral hlarge]
    rfl
  · have hw53' : (w : ℚ) + 1 ≤ 2 ^ 53 := by exact_mod_cast hw53
    have hle : (w : ℚ) ≤ l.magnitude := by
      rw [hmagnitude, written]
      exact le_add_of_nonneg_right (by positivity)
    have hlt : l.magnitude < 2 ^ 63 := by linarith
    obtain ⟨x, hx, hresolve⟩ := hsmall hlt
    rw [hresolve, hx.floor_eq hw53 hle hroom]
    by_cases hzero : w = 0
    · rw [if_neg fun h => h.1 hzero, if_pos hzero]
    · rw [if_pos ⟨hzero, by omega⟩, if_neg hzero]

/-- A decimal far enough from the next whole number, and one that is no instant. -/
theorem resolve_decimal_instant :
    (Text.trim " 1426279439.75 ").toList = "1426279439.75".toList ∧
      resolve (some (.text " 1426279439.75 ")) 5 = reported 1426279439 ∧
      resolve (some (.text "-9223372036854775808.0")) 5 = generated 5 := by
  have hseconds : Text.Numeral.Decimal "1426279439".toList 1426279439 :=
    Text.Numeral.digits?_eq_some_iff.1 (by decide)
  have hfraction : Text.Numeral.Decimal ['7', '5'] 75 :=
    Text.Numeral.digits?_eq_some_iff.1 (by decide)
  have hbound : Text.Numeral.Decimal "9223372036854775808".toList (2 ^ 63) :=
    Text.Numeral.digits?_eq_some_iff.1 (by decide)
  have hzero : Text.Numeral.Decimal "0".toList 0 := Text.Numeral.digits?_eq_some_iff.1 (by decide)
  have hplain : (Text.trim " 1426279439.75 ").toList =
      Sign.absent.text ++ ("1426279439".toList ++ '.' :: ['7', '5']) := by decide
  have hnegative : (Text.trim "-9223372036854775808.0").toList =
      Sign.minus.text ++ ("9223372036854775808".toList ++ '.' :: "0".toList) := by decide
  obtain ⟨-, -, hexact⟩ := resolve_decimal hplain hseconds hfraction 5
  obtain ⟨hlarge, -, -⟩ := resolve_decimal hnegative hbound hzero 5
  refine ⟨by decide, ?_, hlarge ?_⟩
  · rw [hexact (by decide) (by norm_num [written]), floor_written hfraction, if_neg (by decide)]
    rfl
  · norm_num [written]

/-- Near the next whole number a decimal is not cut off but rounded up. -/
theorem not_always_cut_off :
    ¬ ∀ (s : String) (sign : Sign) (whole fraction : List Char) (w f : ℕ) (default : ℤ),
      (Text.trim s).toList = sign.text ++ (whole ++ '.' :: fraction) →
      Text.Numeral.Decimal whole w → Text.Numeral.Decimal fraction f →
      ∀ z, z = sign.apply ⌊written w f fraction.length⌋₊ →
        resolve (some (.text s)) default =
          if z ≠ 0 ∧ -2 ^ 63 ≤ z ∧ z < 2 ^ 63 then reported z else generated default := by
  intro hcut
  have hzero : Text.Numeral.Decimal ['0'] 0 := Text.Numeral.digits?_eq_some_iff.1 (by decide)
  have hnines : Text.Numeral.Decimal (List.replicate 20 '9') (10 ^ 20 - 1) :=
    Text.Numeral.digits?_eq_some_iff.1 (by decide)
  have hclaimed := hcut "0.99999999999999999999" .absent _ _ 0 _ 5 (by decide) hzero hnines 0
    (by rw [floor_written hnines]; rfl)
  have hread : resolve (some (.text "0.99999999999999999999")) 5 = reported 1 := by decide +kernel
  rw [hread, if_neg fun h => h.1 rfl] at hclaimed
  cases hclaimed

end Written

end EventRelay.EventTime
