import EventRelay.Decimal.Layout
import EventRelay.Proofs.Decimal.Rounding
import Mathlib.Data.Nat.Cast.Field

/-!
# How large the shortest digits are

The digits that are written for a value read back as that value. Here of this only what bounds them:
they stand for at least half of it (`Binary64.half_le_shortest`), since the reals that round to a
value lie close to it. So a value that is large enough has its leading digit far to the left and is
written with an exponent (`Layout.mem_magnitude_of_large`).
-/

namespace EventRelay.Decimal

/-- The number that the digits stand for. -/
def Scaled.magnitude (d : Scaled) : ℚ := d.digits * 10 ^ d.exponent

/-- A decimal and a binary number brought to a common denominator. -/
theorem exists_common (a n : ℕ) (i j : ℤ) :
    ∃ c : ℚ, 0 < c ∧ ((a * tenTo i * twoTo (-j) : ℕ) : ℚ) = a * 10 ^ i * c ∧
      ((n * twoTo j * tenTo (-i) : ℕ) : ℚ) = n * 2 ^ j * c := by
  refine ⟨tenTo (-i) * twoTo (-j), mul_pos (cast_tenTo_pos _) (cast_twoTo_pos _), ?_, ?_⟩
  · push_cast
    rw [cast_tenTo i]
    ring
  · push_cast
    rw [cast_twoTo j]
    ring

theorem decimalLe_iff {a n : ℕ} {i j : ℤ} :
    decimalLe a i n j = true ↔ (a : ℚ) * 10 ^ i ≤ n * 2 ^ j := by
  obtain ⟨c, hc, hdecimal, hbinary⟩ := exists_common a n i j
  rw [decimalLe, decide_eq_true_eq, ← Nat.cast_le (α := ℚ), hdecimal, hbinary,
    mul_le_mul_iff_of_pos_right hc]

theorem binaryLe_iff {a n : ℕ} {i j : ℤ} :
    binaryLe n j a i = true ↔ (n : ℚ) * 2 ^ j ≤ a * 10 ^ i := by
  obtain ⟨c, hc, hdecimal, hbinary⟩ := exists_common a n i j
  rw [binaryLe, decide_eq_true_eq, ← Nat.cast_le (α := ℚ), hdecimal, hbinary,
    mul_le_mul_iff_of_pos_right hc]

theorem magnitude_stripZeros (fuel : ℕ) (d : Scaled) :
    (Binary64.stripZeros fuel d).magnitude = d.magnitude := by
  induction fuel generalizing d with
  | zero => rfl
  | succ fuel ih =>
    unfold Binary64.stripZeros
    split
    · next hzero =>
      have hdigits : (d.digits : ℚ) = (d.digits / 10 : ℕ) * 10 := by
        have h : d.digits = d.digits / 10 * 10 := by omega
        exact_mod_cast h
      rw [ih, Scaled.magnitude, Scaled.magnitude, hdigits, zpow_add_one₀ (by norm_num)]
      ring
    · rfl

namespace Binary64

variable {x : Binary64}

theorem half_le_of_readsBack {d : Scaled} (h : x.readsBack d = true) :
    x.magnitude / 2 ≤ d.magnitude := by
  have hlow (low : ℕ) (hm : 2 * x.significand ≤ low) :
      x.magnitude / 2 ≤ low * 2 ^ (x.exponent - 2) := by
    have hcast : 2 * (x.significand : ℚ) ≤ low := by exact_mod_cast hm
    calc x.magnitude / 2 = 2 * x.significand * 2 ^ (x.exponent - 2) := by
          rw [magnitude, zpow_sub₀ two_ne_zero]
          ring
      _ ≤ low * 2 ^ (x.exponent - 2) := by gcongr
  unfold readsBack at h
  dsimp only at h
  split at h
  · rw [Bool.and_eq_true, binaryLe_iff] at h
    exact (hlow _ (by split <;> omega)).trans h.1
  · rw [Bool.and_eq_true, Bool.not_eq_true', Bool.eq_false_iff, ne_eq, decimalLe_iff, not_le] at h
    exact (hlow _ (by split <;> omega)).trans h.1.le

theorem readsBack_of_candidate {tie : Tie} {grid : ℤ} {d : Scaled}
    (h : x.candidate tie grid = some d) : x.readsBack d = true := by
  unfold candidate at h
  dsimp only at h
  split at h
  · cases h
  · next hlow _ =>
    cases h
    exact hlow
  · next _ hhigh =>
    cases h
    exact hhigh
  · next hlow hhigh =>
    split at h
    · cases h
      exact hlow
    · cases h
      exact hhigh
    · split at h
      · cases h
        exact hlow
      · cases h
        exact hhigh

theorem onGrid_whole (x : Binary64) :
    (x.onGrid (min x.exponent 0)).2 ∣ (x.onGrid (min x.exponent 0)).1 := by
  have htwo : twoTo (-x.exponent) ∣ tenTo (-min x.exponent 0) := by
    rcases le_total 0 x.exponent with h | h
    · rw [twoTo_eq_one (by omega)]
      exact one_dvd _
    · rw [min_eq_left h]
      exact pow_dvd_pow_of_dvd (by decide : 2 ∣ 10) _
  rw [onGrid, tenTo_eq_one (min_le_right _ _), mul_one]
  exact htwo.mul_left _

/-- All decimal digits of a value stand for it. -/
theorem magnitude_onGrid (x : Binary64) :
    Scaled.magnitude ⟨(x.onGrid (min x.exponent 0)).1 / (x.onGrid (min x.exponent 0)).2,
      min x.exponent 0⟩ = x.magnitude := by
  have htwo := cast_twoTo_pos (-x.exponent)
  have hten := cast_tenTo_pos (min x.exponent 0)
  have hten' := cast_tenTo_pos (-min x.exponent 0)
  have hden : (((x.onGrid (min x.exponent 0)).2 : ℕ) : ℚ) ≠ 0 := by
    rw [onGrid, Nat.cast_mul]
    exact (mul_pos htwo hten).ne'
  rw [Scaled.magnitude, Nat.cast_div (onGrid_whole x) hden, magnitude, onGrid]
  push_cast
  rw [cast_twoTo x.exponent, cast_tenTo (min x.exponent 0)]
  field_simp

/-- The shortest digits do not stand for much less than the value. -/
theorem half_le_shortest (tie : Tie) (x : Binary64) :
    x.magnitude / 2 ≤ (x.shortest tie).magnitude := by
  unfold shortest
  split
  · next hzero =>
    have h : x.significand = 0 := of_decide_eq_true hzero
    simp [magnitude, Scaled.magnitude, h]
  · dsimp only
    split
    · next d hd =>
      obtain ⟨n, -, hn⟩ := List.exists_of_findSome?_eq_some hd
      rw [magnitude_stripZeros]
      exact half_le_of_readsBack (readsBack_of_candidate hn)
    · rw [magnitude_onGrid]
      linarith [x.magnitude_nonneg]

end Binary64

/-- A large value is written with an exponent. -/
theorem Layout.mem_magnitude_of_large {f : Layout} {x : Binary64}
    (hx : 2 * 10 ^ f.plainBelow ≤ x.magnitude) : 'e' ∈ f.magnitude x := by
  have hpos : (0 : ℚ) < 10 ^ f.plainBelow := by positivity
  have hzero : ¬ x.isZero = true := by
    intro h
    have hm : x.significand = 0 := of_decide_eq_true h
    rw [Binary64.magnitude, hm, Nat.cast_zero, zero_mul] at hx
    linarith
  -- the digits stand for at least half the value, and so the leading one stands far to the left
  have hlead : f.plainBelow ≤ (x.shortest f.tie).exponent +
      (Nat.toDigits 10 (x.shortest f.tie).digits).length - 1 := by
    have hhalf := Binary64.half_le_shortest f.tie x
    have hlt := lt_ten_zpow (x.shortest f.tie).digits (x.shortest f.tie).exponent
    rw [← Scaled.magnitude] at hlt
    have h : (10 : ℚ) ^ f.plainBelow < 10 ^ ((Nat.toDigits 10 (x.shortest f.tie).digits).length +
        (x.shortest f.tie).exponent) := by linarith
    have hexponent := (zpow_lt_zpow_iff_right₀ (by norm_num : (1 : ℚ) < 10)).1 h
    omega
  unfold Layout.magnitude
  rw [if_neg hzero]
  dsimp only
  rw [if_neg (by omega)]
  unfold Layout.scientific
  exact List.mem_append_right _ List.mem_cons_self

end EventRelay.Decimal
