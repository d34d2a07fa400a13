/-!
# Powers of two and of ten

Exact scaling of naturals by an integer exponent. A factor base^e is kept as a fraction: its
numerator is the power for e and its denominator the power for -e, and one of the two is always one
(`twoTo_eq_one`, `tenTo_eq_one`). So nothing is ever divided before the last step.
-/

namespace EventRelay.Decimal

/-- The power of two; one for an exponent below zero. -/
def twoTo (e : Int) : Nat := Nat.pow 2 e.toNat

/-- The power of ten; one for an exponent below zero. -/
def tenTo (e : Int) : Nat := Nat.pow 10 e.toNat

theorem twoTo_eq_one {e : Int} (h : e ≤ 0) : twoTo e = 1 := by
  simp [twoTo, Int.toNat_of_nonpos h]

theorem tenTo_eq_one {e : Int} (h : e ≤ 0) : tenTo e = 1 := by
  simp [tenTo, Int.toNat_of_nonpos h]

theorem twoTo_pos (e : Int) : 0 < twoTo e := Nat.pow_pos (by decide)

theorem tenTo_pos (e : Int) : 0 < tenTo e := Nat.pow_pos (by decide)

end EventRelay.Decimal
