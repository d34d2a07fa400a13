import EventRelay.Decimal.Binary64
import Mathlib.Algebra.Ring.Int.Parity
import Mathlib.Algebra.Order.Field.Power
import Mathlib.Algebra.Order.Floor.Semifield
import Mathlib.Data.Nat.Log
import Mathlib.Data.Rat.Floor
import Mathlib.Tactic.FieldSimp
import Mathlib.Tactic.Linarith
import Mathlib.Tactic.Positivity
import Mathlib.Tactic.Ring

/-!
# Rounding is to the nearest value

Here a fraction of naturals is a rational number and a value of the format is its magnitude
m · 2^e, so that what `Binary64.round` gives can be compared with what it was given. It is a nearest
value of the format, the one with the even significand if two are equally near (`nearest_of_round`),
and there is none only past the last finite value (`overflow_le_of_round`).

What callers need of that is that rounding stays on the same side of every value of the format
(`Nearest.le_magnitude`, `Nearest.magnitude_le`), and where it keeps the whole part of a number
(`Nearest.floor_eq`).
-/

namespace EventRelay.Decimal

/-! ## Exact values -/

theorem cast_pow_toNat {b : ℕ} (hb : b ≠ 0) (e : ℤ) :
    ((Nat.pow b e.toNat : ℕ) : ℚ) = (b : ℚ) ^ e * (Nat.pow b (-e).toNat : ℕ) := by
  have hcast (n : ℕ) : ((Nat.pow b n : ℕ) : ℚ) = (b : ℚ) ^ (n : ℤ) := by
    rw [zpow_natCast]
    exact Nat.cast_pow b n
  rw [hcast, hcast, ← zpow_add₀ (Nat.cast_ne_zero.2 hb)]
  congr 1
  omega

/-- A factor 2^e, kept as a fraction. -/
theorem cast_twoTo (e : ℤ) : (twoTo e : ℚ) = 2 ^ e * twoTo (-e) :=
  cast_pow_toNat (by decide) e

/-- A factor 10^e, kept as a fraction. -/
theorem cast_tenTo (e : ℤ) : (tenTo e : ℚ) = 10 ^ e * tenTo (-e) :=
  cast_pow_toNat (by decide) e

theorem cast_twoTo_pos (e : ℤ) : (0 : ℚ) < twoTo e := Nat.cast_pos.2 (twoTo_pos e)

theorem cast_tenTo_pos (e : ℤ) : (0 : ℚ) < tenTo e := Nat.cast_pos.2 (tenTo_pos e)

theorem tenTo_le_tenTo {d e : ℤ} (h : d ≤ e) : tenTo d ≤ tenTo e :=
  Nat.pow_le_pow_right (by decide) (Int.toNat_le_toNat h)

/-- A fraction scaled by 2^e, the factor being split between numerator and denominator. -/
theorem div_twoTo (num den : ℕ) (e : ℤ) :
    ((num * twoTo e : ℕ) : ℚ) / ((den * twoTo (-e) : ℕ) : ℚ) = num / den * 2 ^ e := by
  have h := cast_twoTo_pos (-e)
  rw [Nat.cast_mul, Nat.cast_mul, cast_twoTo e]
  field_simp

theorem div_tenTo (num : ℕ) (e : ℤ) :
    ((num * tenTo e : ℕ) : ℚ) / (tenTo (-e) : ℕ) = num * 10 ^ e := by
  have h := cast_tenTo_pos (-e)
  rw [Nat.cast_mul, cast_tenTo e]
  field_simp

/-- How many digits stand before the point bounds a decimal. -/
theorem lt_ten_zpow (n : ℕ) (e : ℤ) :
    (n : ℚ) * 10 ^ e < 10 ^ ((Nat.toDigits 10 n).length + e) := by
  have hn : (n : ℚ) < 10 ^ (Nat.toDigits 10 n).length := by
    have h := (Nat.length_toDigits_le_iff (b := 10) (n := n) (by decide)
      Nat.length_toDigits_pos).1 le_rfl
    exact_mod_cast h
  rw [zpow_add₀ (by norm_num), zpow_natCast]
  gcongr

theorem ten_zpow_le {n : ℕ} (hn : n ≠ 0) (e : ℤ) :
    (10 : ℚ) ^ ((Nat.toDigits 10 n).length + e - 1) ≤ n * 10 ^ e := by
  have hdigits : (10 : ℚ) ^ ((Nat.toDigits 10 n).length - 1) ≤ n := by
    have h : 10 ^ ((Nat.toDigits 10 n).length - 1) ≤ n := by
      by_contra hlt
      by_cases hone : (Nat.toDigits 10 n).length - 1 = 0
      · rw [hone] at hlt
        omega
      · have hle := (Nat.length_toDigits_le_iff (b := 10) (n := n) (by decide)
          (Nat.pos_of_ne_zero hone)).2 (not_le.1 hlt)
        omega
    exact_mod_cast h
  have hpos : 0 < (Nat.toDigits 10 n).length := Nat.length_toDigits_pos
  have hexponent : (Nat.toDigits 10 n).length + e - 1 =
      ((Nat.toDigits 10 n).length - 1 : ℕ) + e := by omega
  rw [hexponent, zpow_add₀ (by norm_num), zpow_natCast]
  gcongr

/-! ## Whole numbers and powers of two -/

theorem roundDiv_near {num den : ℕ} (hden : 0 < den) :
    |(roundDiv num den : ℚ) - num / den| ≤ 1 / 2 ∧
      (|(roundDiv num den : ℚ) - num / den| = 1 / 2 → Even (roundDiv num den)) := by
  have hd : (0 : ℚ) < den := Nat.cast_pos.2 hden
  -- what is rounded off is the fraction f behind the whole number num / den
  obtain ⟨f, hf⟩ : ∃ f : ℚ, f = ((num % den : ℕ) : ℚ) / den := ⟨_, rfl⟩
  have hnonneg : 0 ≤ f := by rw [hf]; positivity
  have hone : f < 1 := by
    rw [hf, div_lt_one hd]
    exact Nat.cast_lt.2 (Nat.mod_lt num hden)
  have hsplit : (num : ℚ) / den = (num / den : ℕ) + f := by
    have h : (num : ℚ) = den * (num / den : ℕ) + (num % den : ℕ) := by
      exact_mod_cast (Nat.div_add_mod num den).symm
    rw [h, hf]
    field_simp
  have hless : 2 * (num % den) < den ↔ f < 1 / 2 := by
    rw [hf, div_lt_iff₀ hd, ← Nat.cast_lt (α := ℚ), Nat.cast_mul, Nat.cast_ofNat]
    constructor <;> intro h <;> linarith
  have hhalf : 2 * (num % den) = den ↔ f = 1 / 2 := by
    rw [hf, div_eq_iff hd.ne', ← Nat.cast_inj (R := ℚ), Nat.cast_mul, Nat.cast_ofNat]
    constructor <;> intro h <;> linarith
  rw [hsplit]
  unfold roundDiv
  simp only [hless, hhalf]
  split
  · next hdown =>
    have hle : f ≤ 1 / 2 := hdown.elim le_of_lt fun h => h.1.le
    rw [sub_add_cancel_left, abs_neg, abs_of_nonneg hnonneg]
    refine ⟨hle, fun heq => ?_⟩
    exact Nat.even_iff.2 (hdown.resolve_left heq.not_lt).2
  · next hup =>
    have hge : 1 / 2 ≤ f := not_lt.1 fun hlt => hup (.inl hlt)
    rw [Nat.cast_add, Nat.cast_one, add_sub_add_left_eq_sub, abs_of_nonneg (by linarith)]
    refine ⟨by linarith, fun heq => ?_⟩
    have hodd : ¬ num / den % 2 = 0 := fun heven => hup (.inr ⟨by linarith, heven⟩)
    exact Nat.even_iff.2 (by omega)

theorem lt_div_twoTo_iff {num den : ℕ} (hden : 0 < den) (k : ℤ) :
    num * twoTo (-k) < den * twoTo k ↔ (num : ℚ) / den < 2 ^ k := by
  have hd : (0 : ℚ) < den := Nat.cast_pos.2 hden
  have hpos := cast_twoTo_pos (-k)
  rw [← Nat.cast_lt (α := ℚ), Nat.cast_mul, Nat.cast_mul, cast_twoTo k, div_lt_iff₀ hd, ← mul_assoc,
    mul_lt_mul_iff_of_pos_right hpos, mul_comm (den : ℚ)]

theorem floorLog2_spec {num den : ℕ} (hnum : 0 < num) (hden : 0 < den) :
    (2 : ℚ) ^ floorLog2 num den ≤ num / den ∧ (num : ℚ) / den < 2 ^ (floorLog2 num den + 1) := by
  have hd : (0 : ℚ) < den := Nat.cast_pos.2 hden
  have hlog {n : ℕ} (hn : 0 < n) :
      (2 : ℚ) ^ (n.log2 : ℤ) ≤ n ∧ (n : ℚ) < 2 ^ ((n.log2 : ℤ) + 1) := by
    rw [zpow_natCast, ← Nat.cast_succ, zpow_natCast]
    exact ⟨by exact_mod_cast Nat.log2_self_le hn.ne', by exact_mod_cast Nat.lt_log2_self⟩
  obtain ⟨hnum, hnum'⟩ := hlog hnum
  obtain ⟨hden, hden'⟩ := hlog hden
  have hlow : (2 : ℚ) ^ ((num.log2 : ℤ) - den.log2 - 1) ≤ num / den := by
    rw [le_div_iff₀ hd]
    calc (2 : ℚ) ^ ((num.log2 : ℤ) - den.log2 - 1) * den
        ≤ 2 ^ ((num.log2 : ℤ) - den.log2 - 1) * 2 ^ ((den.log2 : ℤ) + 1) := by gcongr
      _ = 2 ^ (num.log2 : ℤ) := by rw [← zpow_add₀ two_ne_zero]; congr 1; ring
      _ ≤ num := hnum
  have hhigh : (num : ℚ) / den < 2 ^ ((num.log2 : ℤ) - den.log2 + 1) := by
    rw [div_lt_iff₀ hd]
    calc (num : ℚ) < 2 ^ ((num.log2 : ℤ) + 1) := hnum'
      _ = 2 ^ ((num.log2 : ℤ) - den.log2 + 1) * 2 ^ (den.log2 : ℤ) := by
        rw [← zpow_add₀ two_ne_zero]; congr 1; ring
      _ ≤ 2 ^ ((num.log2 : ℤ) - den.log2 + 1) * den := by gcongr
  unfold floorLog2
  dsimp only
  split
  · next hbelow =>
    rw [lt_div_twoTo_iff (Nat.cast_pos.1 hd)] at hbelow
    exact ⟨hlow, by rwa [sub_add_cancel]⟩
  · next hbelow =>
    rw [lt_div_twoTo_iff (Nat.cast_pos.1 hd), not_lt] at hbelow
    exact ⟨hbelow, hhigh⟩

/-! ## The format -/

namespace Binary64

/-- The number without its sign. -/
def magnitude (x : Binary64) : ℚ := x.significand * 2 ^ x.exponent

/-- The one form of each value: the significand has at most 53 bits, and as many of them as the
exponents of the format allow. -/
structure Canonical (x : Binary64) : Prop where
  significand_lt : x.significand < 2 ^ 53
  le_exponent : -1074 ≤ x.exponent
  exponent_le : x.exponent ≤ 971
  normal : 2 ^ 52 ≤ x.significand ∨ x.exponent = -1074

/-- The magnitudes of the finite values of the format. -/
def IsFinite (y : ℚ) : Prop :=
  ∃ (m : ℕ) (e : ℤ), m < 2 ^ 53 ∧ -1074 ≤ e ∧ e ≤ 971 ∧ y = m * 2 ^ e

/-- No finite value is nearer to the number, and if another one is as near, this one has the even
significand. -/
structure Nearest (q : ℚ) (x : Binary64) : Prop where
  canonical : x.Canonical
  le_dist : ∀ y, IsFinite y → |x.magnitude - q| ≤ |y - q|
  even : ∀ y, IsFinite y → |y - q| = |x.magnitude - q| → y ≠ x.magnitude → Even x.significand

theorem magnitude_nonneg (x : Binary64) : 0 ≤ x.magnitude := by
  unfold magnitude
  positivity

variable {q y : ℚ} {x : Binary64}

/-- Rounding does not fall below a value of the format. -/
theorem Nearest.le_magnitude (h : Nearest q x) (hy : IsFinite y) (hle : y ≤ q) :
    y ≤ x.magnitude := by
  by_contra hlt
  have hdist := h.le_dist y hy
  rw [abs_of_nonpos (by linarith), abs_of_nonpos (by linarith)] at hdist
  linarith

/-- Rounding does not rise above a value of the format. -/
theorem Nearest.magnitude_le (h : Nearest q x) (hy : IsFinite y) (hle : q ≤ y) :
    x.magnitude ≤ y := by
  by_contra hlt
  have hdist := h.le_dist y hy
  rw [abs_of_nonneg (by linarith), abs_of_nonneg (by linarith)] at hdist
  linarith

/-- A number below half the least value of the format is rounded to zero. -/
theorem nearest_zero (negative : Bool) (hq : 0 ≤ q) (hlt : q < 2 ^ (-1075 : ℤ)) :
    Nearest q (zero negative) := by
  have hzero : (zero negative).magnitude = 0 := zero_mul _
  refine ⟨⟨Nat.two_pow_pos 53, le_rfl, by dsimp only [zero]; omega, .inr rfl⟩, ?_,
    fun _ _ _ _ => ⟨0, rfl⟩⟩
  rintro y ⟨m, e, -, hmin, -, rfl⟩
  rw [hzero, zero_sub, abs_neg, abs_of_nonneg hq]
  rcases Nat.eq_zero_or_pos m with rfl | hm
  · rw [Nat.cast_zero, zero_mul, zero_sub, abs_neg, abs_of_nonneg hq]
  have hleast : 2 * (2 : ℚ) ^ (-1075 : ℤ) ≤ m * 2 ^ e := by
    calc 2 * (2 : ℚ) ^ (-1075 : ℤ) = 1 * 2 ^ (-1074 : ℤ) := by
          rw [← zpow_one_add₀ two_ne_zero, one_mul]
          rfl
      _ ≤ m * 2 ^ e := by
        have hone : (1 : ℚ) ≤ m := by exact_mod_cast hm
        have hpow : (2 : ℚ) ^ (-1074 : ℤ) ≤ 2 ^ e := zpow_le_zpow_right₀ (by norm_num) hmin
        gcongr
  exact le_abs.2 (.inl (by linarith))

/-! ## Rounding -/

/-- A whole number nearest to q / 2^s makes a value nearest to q, if all values of the format that
are no multiples of 2^s lie too far below. -/
theorem grid_near {s : ℤ} {m : ℕ} (hnear : |(m : ℚ) - q / 2 ^ s| ≤ 1 / 2)
    (heven : |(m : ℚ) - q / 2 ^ s| = 1 / 2 → Even m)
    (hbelow : -1074 < s → (2 : ℚ) ^ (s + 52) ≤ q) (hy : IsFinite y) :
    |m * 2 ^ s - q| ≤ |y - q| ∧ (|y - q| = |m * 2 ^ s - q| → y ≠ m * 2 ^ s → Even m) := by
  have hs : (0 : ℚ) < 2 ^ s := by positivity
  have hscale (z : ℚ) : |z * 2 ^ s - q| = 2 ^ s * |z - q / 2 ^ s| := by
    rw [← abs_of_pos hs, ← abs_mul, abs_of_pos hs]
    congr 1
    field_simp
  -- between two different whole numbers there is no room for one to be nearer than the half
  have hwhole (k : ℤ) (hk : k ≠ m) :
      |(m : ℚ) - q / 2 ^ s| ≤ |(k : ℚ) - q / 2 ^ s| ∧
        (|(k : ℚ) - q / 2 ^ s| = |(m : ℚ) - q / 2 ^ s| → Even m) := by
    have hone : (1 : ℚ) ≤ |(k : ℚ) - m| := by
      have h : (1 : ℤ) ≤ |k - m| := Int.one_le_abs (sub_ne_zero.2 hk)
      exact_mod_cast h
    have htriangle : |(k : ℚ) - m| ≤ |(k : ℚ) - q / 2 ^ s| + |(m : ℚ) - q / 2 ^ s| := by
      rw [abs_sub_comm (m : ℚ)]
      exact abs_sub_le _ _ _
    exact ⟨by linarith, fun heq => heven (by linarith)⟩
  obtain ⟨n, e, hn, hmin, -, rfl⟩ := hy
  by_cases hse : s ≤ e
  · obtain ⟨d, rfl⟩ := Int.le.dest hse
    have hgrid : (n : ℚ) * 2 ^ (s + (d : ℤ)) = ((n * 2 ^ d : ℕ) : ℤ) * 2 ^ s := by
      rw [zpow_add₀ two_ne_zero, zpow_natCast]
      push_cast
      ring
    rw [hgrid, hscale, hscale]
    by_cases hk : ((n * 2 ^ d : ℕ) : ℤ) = m
    · rw [hk]
      exact ⟨le_rfl, fun _ hne => absurd rfl hne⟩
    · obtain ⟨hle, htie⟩ := hwhole _ hk
      exact ⟨mul_le_mul_of_nonneg_left hle hs.le, fun heq _ => htie (mul_left_cancel₀ hs.ne' heq)⟩
  · -- what is no multiple of 2^s lies below 2^(s + 52), which is one
    have hq := hbelow (by omega)
    have hlt : (n : ℚ) * 2 ^ e < 2 ^ (s + 52) := by
      calc (n : ℚ) * 2 ^ e < 2 ^ (53 : ℤ) * 2 ^ e := by
            have h : (n : ℚ) < 2 ^ (53 : ℤ) := by exact_mod_cast hn
            gcongr
        _ = 2 ^ (e + 53) := by rw [← zpow_add₀ two_ne_zero]; congr 1; ring
        _ ≤ 2 ^ (s + 52) := zpow_le_zpow_right₀ (by norm_num) (by omega)
    have hcorner : |(m : ℚ) * 2 ^ s - q| ≤ |((2 ^ 52 : ℕ) : ℤ) * 2 ^ s - q| := by
      rw [hscale, hscale]
      by_cases hk : ((2 ^ 52 : ℕ) : ℤ) = m
      · rw [hk, Int.cast_natCast]
      · exact mul_le_mul_of_nonneg_left (hwhole _ hk).1 hs.le
    have hvalue : (((2 ^ 52 : ℕ) : ℤ) : ℚ) * 2 ^ s = 2 ^ (s + 52) := by
      rw [zpow_add₀ two_ne_zero]
      push_cast
      ring
    rw [hvalue, abs_of_nonpos (by linarith : (2 : ℚ) ^ (s + 52) - q ≤ 0)] at hcorner
    have hstrict : |(m : ℚ) * 2 ^ s - q| < |(n : ℚ) * 2 ^ e - q| := by
      rw [abs_of_nonpos (by linarith : (n : ℚ) * 2 ^ e - q ≤ 0)]
      linarith
    exact ⟨hstrict.le, fun heq => absurd heq hstrict.ne'⟩

/-- The unit of the last place in which a fraction is rounded. -/
def lastPlace (num den : ℕ) : ℤ := max (floorLog2 num den - 52) (-1074)

/-- The fraction in that unit, rounded to a whole number. -/
def units (num den : ℕ) : ℕ :=
  roundDiv (num * twoTo (-lastPlace num den)) (den * twoTo (lastPlace num den))

theorem round_of_pos {negative : Bool} {num den : ℕ} (hnum : 0 < num) :
    round negative num den =
      if units num den = 2 ^ 53 then
        if lastPlace num den + 1 ≤ 971 then some ⟨negative, 2 ^ 52, lastPlace num den + 1⟩ else none
      else if lastPlace num den ≤ 971 then some ⟨negative, units num den, lastPlace num den⟩
      else none := by
  have hfull : twoTo 53 = 2 ^ 53 ∧ twoTo 52 = 2 ^ 52 := by decide
  simp only [round, if_neg hnum.ne', ← lastPlace.eq_def, ← units.eq_def, hfull]
  by_cases h : units num den = 2 ^ 53
  · simp only [if_pos h]
  · simp only [if_neg h]

section Units
variable {num den : ℕ}

theorem units_near (num : ℕ) (hden : 0 < den) :
    |(units num den : ℚ) - num / den / 2 ^ lastPlace num den| ≤ 1 / 2 ∧
      (|(units num den : ℚ) - num / den / 2 ^ lastPlace num den| = 1 / 2 →
        Even (units num den)) := by
  have hscaled : (num : ℚ) / den / 2 ^ lastPlace num den =
      ((num * twoTo (-lastPlace num den) : ℕ) : ℚ) /
        ((den * twoTo (lastPlace num den) : ℕ) : ℚ) := by
    have h := div_twoTo num den (-lastPlace num den)
    rw [neg_neg] at h
    rw [h, zpow_neg, div_eq_mul_inv]
  rw [hscaled]
  exact roundDiv_near (Nat.mul_pos hden (twoTo_pos _))

theorem le_of_lastPlace (hnum : 0 < num) (hden : 0 < den) (h : -1074 < lastPlace num den) :
    (2 : ℚ) ^ (lastPlace num den + 52) ≤ num / den := by
  have hplace : lastPlace num den + 52 = floorLog2 num den := by
    unfold lastPlace at h ⊢
    omega
  rw [hplace]
  exact (floorLog2_spec hnum hden).1

theorem units_le (hnum : 0 < num) (hden : 0 < den) : units num den ≤ 2 ^ 53 := by
  have hnear := (abs_le.1 (units_near num hden).1).2
  have hlt : (num : ℚ) / den / 2 ^ lastPlace num den < 2 ^ 53 := by
    rw [div_lt_iff₀ (by positivity)]
    calc (num : ℚ) / den < 2 ^ (floorLog2 num den + 1) := (floorLog2_spec hnum hden).2
      _ ≤ 2 ^ (53 + lastPlace num den) :=
        zpow_le_zpow_right₀ (by norm_num) (by unfold lastPlace; omega)
      _ = 2 ^ 53 * 2 ^ lastPlace num den := by
        rw [zpow_add₀ two_ne_zero]
        norm_cast
  have h : (units num den : ℚ) < ((2 ^ 53 + 1 : ℕ) : ℚ) := by
    push_cast
    linarith
  exact Nat.le_of_lt_succ (Nat.cast_lt.1 h)

theorem le_units (hnum : 0 < num) (hden : 0 < den) :
    2 ^ 52 ≤ units num den ∨ lastPlace num den = -1074 := by
  by_cases hplace : lastPlace num den = -1074
  · exact .inr hplace
  have hnear := (abs_le.1 (units_near num hden).1).1
  have hle : (2 : ℚ) ^ 52 ≤ num / den / 2 ^ lastPlace num den := by
    rw [le_div_iff₀ (by positivity)]
    calc (2 : ℚ) ^ 52 * 2 ^ lastPlace num den = 2 ^ (lastPlace num den + 52) := by
          rw [zpow_add₀ two_ne_zero, mul_comm]
          norm_cast
      _ ≤ num / den := le_of_lastPlace hnum hden (by unfold lastPlace at hplace ⊢; omega)
  have h : ((2 ^ 52 : ℕ) : ℚ) < ((units num den + 1 : ℕ) : ℚ) := by
    push_cast
    linarith
  exact .inl (Nat.le_of_lt_succ (Nat.cast_lt.1 h))

/-- What rounding gives is a nearest value. -/
theorem nearest_of_round {negative : Bool} (hden : 0 < den)
    (h : round negative num den = some x) : x.negative = negative ∧ Nearest (num / den) x := by
  rcases Nat.eq_zero_or_pos num with rfl | hnum
  · cases h
    rw [Nat.cast_zero, zero_div]
    exact ⟨rfl, nearest_zero negative le_rfl (by positivity)⟩
  obtain ⟨hnear, heven⟩ := units_near num hden
  have hgrid (y : ℚ) (hy : IsFinite y) :=
    grid_near hnear heven (le_of_lastPlace hnum hden) hy
  have hplace : -1074 ≤ lastPlace num den := le_max_right _ _
  rw [round_of_pos hnum] at h
  split at h
  · next hcarry =>
    split at h
    · next hmax =>
      cases h
      have hvalue : (⟨negative, 2 ^ 52, lastPlace num den + 1⟩ : Binary64).magnitude =
          units num den * 2 ^ lastPlace num den := by
        rw [magnitude, hcarry, zpow_add_one₀ two_ne_zero]
        push_cast
        ring
      refine ⟨rfl, ⟨by norm_num, by dsimp only; omega, hmax, .inl le_rfl⟩, ?_,
        fun _ _ _ _ => ⟨2 ^ 51, by norm_num⟩⟩
      intro y hy
      rw [hvalue]
      exact (hgrid y hy).1
    · cases h
  · next hcarry =>
    split at h
    · next hmax =>
      cases h
      exact ⟨rfl, ⟨lt_of_le_of_ne (units_le hnum hden) hcarry, hplace, hmax, le_units hnum hden⟩,
        fun y hy => (hgrid y hy).1, fun y hy => (hgrid y hy).2⟩
    · cases h

/-- What is too large for the format lies at or past the middle between its last value and the next
power of two. -/
theorem overflow_le_of_round {negative : Bool} (hden : 0 < den)
    (h : round negative num den = none) : (2 ^ 53 - 1 / 2) * (2 : ℚ) ^ (971 : ℤ) ≤ num / den := by
  rcases Nat.eq_zero_or_pos num with rfl | hnum
  · cases h
  have hnear := (abs_le.1 (units_near num hden).1).2
  rw [round_of_pos hnum] at h
  by_cases hcarry : units num den = 2 ^ 53
  · rw [if_pos hcarry] at h
    have hplace : 971 ≤ lastPlace num den := by
      by_contra hlt
      rw [if_pos (by omega)] at h
      cases h
    have hlow : (2 : ℚ) ^ 53 - 1 / 2 ≤ num / den / 2 ^ lastPlace num den := by
      have hunits : (units num den : ℚ) = 2 ^ 53 := by exact_mod_cast hcarry
      linarith
    calc (2 ^ 53 - 1 / 2) * (2 : ℚ) ^ (971 : ℤ) ≤ (2 ^ 53 - 1 / 2) * 2 ^ lastPlace num den :=
          mul_le_mul_of_nonneg_left (zpow_le_zpow_right₀ (by norm_num) hplace) (by norm_num)
      _ ≤ num / den := (le_div_iff₀ (by positivity)).1 hlow
  · rw [if_neg hcarry] at h
    have hplace : 971 < lastPlace num den := by
      by_contra hle
      rw [if_pos (by omega)] at h
      cases h
    calc (2 ^ 53 - 1 / 2) * (2 : ℚ) ^ (971 : ℤ) ≤ 2 ^ (53 : ℤ) * (2 : ℚ) ^ (971 : ℤ) :=
          mul_le_mul_of_nonneg_right (by norm_num) (by positivity)
      _ = 2 ^ (53 + 971 : ℤ) := (zpow_add₀ two_ne_zero _ _).symm
      _ ≤ 2 ^ (lastPlace num den + 52) := zpow_le_zpow_right₀ (by norm_num) (by omega)
      _ ≤ num / den := le_of_lastPlace hnum hden (by omega)

end Units

/-! ## Whole parts -/

theorem truncate_eq (x : Binary64) :
    x.truncate = if x.negative then -(⌊x.magnitude⌋₊ : ℤ) else ⌊x.magnitude⌋₊ := by
  have hfloor : ⌊x.magnitude⌋₊ = x.significand * twoTo x.exponent / twoTo (-x.exponent) := by
    have hexact := div_twoTo x.significand 1 x.exponent
    rw [one_mul, Nat.cast_one, div_one] at hexact
    rw [magnitude, ← hexact, Nat.floor_div_eq_div]
  rw [truncate, hfloor]

/-- Rounding keeps the whole part of a number, unless it is too large for the format to tell whole
numbers apart or very near to the next one. -/
theorem Nearest.floor_eq {w : ℕ} (h : Nearest q x) (hw : w < 2 ^ 53) (hle : (w : ℚ) ≤ q)
    (hq : q ≤ (w + 1) * (1 - 1 / 2 ^ 53)) : ⌊x.magnitude⌋₊ = w := by
  have hlow : (w : ℚ) ≤ x.magnitude :=
    h.le_magnitude ⟨w, 0, hw, by decide, by decide, by rw [zpow_zero, mul_one]⟩ hle
  -- the value of the format below w + 1 is (w + 1) - 2^(-j)
  obtain ⟨j, hj, hmax⟩ : ∃ j : ℕ, (w + 1) * 2 ^ j ≤ 2 ^ 53 ∧ 2 ^ 53 < (w + 1) * 2 ^ (j + 1) := by
    have hpos : 2 ^ 53 / (w + 1) ≠ 0 := (Nat.div_pos (by omega) (Nat.succ_pos w)).ne'
    refine ⟨Nat.log 2 (2 ^ 53 / (w + 1)), ?_, ?_⟩
    · rw [mul_comm]
      exact (Nat.le_div_iff_mul_le (Nat.succ_pos w)).1 (Nat.pow_log_le_self 2 hpos)
    · rw [mul_comm]
      exact (Nat.div_lt_iff_lt_mul (Nat.succ_pos w)).1 (Nat.lt_pow_succ_log_self (by decide) _)
  have hunit : 2 ^ j ≤ 2 ^ 53 := le_trans (Nat.le_mul_of_pos_left _ (Nat.succ_pos w)) hj
  have hj53 : j ≤ 53 := (Nat.pow_le_pow_iff_right (by decide)).1 hunit
  have hbelow : IsFinite (w + 1 - 1 / 2 ^ j) := by
    have hone : 1 ≤ (w + 1) * 2 ^ j := Nat.mul_pos (Nat.succ_pos w) (Nat.two_pow_pos j)
    refine ⟨(w + 1) * 2 ^ j - 1, -j, by omega, by omega, by omega, ?_⟩
    rw [Nat.cast_sub hone, zpow_neg, zpow_natCast]
    push_cast
    field_simp
  have hhigh : x.magnitude < w + 1 := by
    have hstep : (0 : ℚ) < 1 / 2 ^ j := by positivity
    rcases le_total q (w + 1 - 1 / 2 ^ j) with hcase | hcase
    · linarith [h.magnitude_le hbelow hcase]
    by_contra hnot
    have hdist := h.le_dist _ hbelow
    rw [abs_of_nonneg (by linarith), abs_of_nonpos (by linarith)] at hdist
    have hgap : (2 : ℚ) ^ 53 / 2 ^ (j + 1) < w + 1 := by
      rw [div_lt_iff₀ (by positivity)]
      exact_mod_cast hmax
    have hhalf : (2 : ℚ) ^ 53 / 2 ^ (j + 1) = 2 ^ 53 * (1 / 2 ^ j) / 2 := by
      rw [pow_succ _ j, div_mul_eq_div_div, mul_one_div]
    linarith
  exact (Nat.floor_eq_iff x.magnitude_nonneg).2 ⟨hlow, hhigh⟩

/-! ## Operations -/

theorem nearest_of_ofNat? {n : ℕ} (h : ofNat? n = some x) : Nearest n x := by
  have hnearest := (nearest_of_round Nat.one_pos h).2
  rwa [Nat.cast_one, div_one] at hnearest

theorem nearest_of_mul? {y z : Binary64} (h : x.mul? y = some z) :
    Nearest (x.magnitude * y.magnitude) z := by
  have hexact := div_twoTo (x.significand * y.significand) 1 (x.exponent + y.exponent)
  rw [one_mul, Nat.cast_one, div_one] at hexact
  have hproduct : x.magnitude * y.magnitude =
      (x.significand * y.significand : ℕ) * 2 ^ (x.exponent + y.exponent) := by
    rw [magnitude, magnitude, zpow_add₀ two_ne_zero, Nat.cast_mul, mul_mul_mul_comm]
  rw [hproduct, ← hexact]
  exact (nearest_of_round (twoTo_pos _) h).2

end Binary64

end EventRelay.Decimal
