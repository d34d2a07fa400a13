import EventRelay.Decimal.Power

/-!
# Finite binary64 values

A finite value of the 64-bit binary format is m · 2^e with a sign: m has at most 53 bits and e is at
least -1074. Every operation is stated exactly over fractions of naturals and then rounded once, to
the nearest value and on a tie to the one with the even m. So an operation needs no algorithm of its
own, and what is true of it follows from what is true of rounding. Values that are too large for the
format have no finite rounding and come out as nothing; infinities and NaN are never represented.
-/

namespace EventRelay.Decimal

/-- A finite binary64 value, in the form in which m is below 2^53 and as large as e ≥ -1074 allows.
-/
structure Binary64 where
  negative : Bool
  significand : Nat
  exponent : Int
deriving DecidableEq, Repr

/-- The quotient rounded to the nearest natural number, a tie to the even one. -/
def roundDiv (num den : Nat) : Nat :=
  let q := num / den
  let r := num % den
  if 2 * r < den ∨ (2 * r = den ∧ q % 2 = 0) then q else q + 1

/-- The largest k with 2^k ≤ num / den, for positive arguments. -/
def floorLog2 (num den : Nat) : Int :=
  let k : Int := (num.log2 : Int) - den.log2
  if num * twoTo (-k) < den * twoTo k then k - 1 else k

namespace Binary64

/-- Zero, with a sign. -/
def zero (negative : Bool) : Binary64 := ⟨negative, 0, -1074⟩

/-- The value nearest to num / den, or nothing when that lies past the last finite value. -/
def round (negative : Bool) (num den : Nat) : Option Binary64 :=
  if num = 0 then some (zero negative)
  else
    let e := max (floorLog2 num den - 52) (-1074)
    let m := roundDiv (num * twoTo (-e)) (den * twoTo e)
    -- rounding up can carry into a 54th bit, and then m is the power of two itself
    let (m, e) := if m = twoTo 53 then (twoTo 52, e + 1) else (m, e)
    if e ≤ 971 then some ⟨negative, m, e⟩ else none

/-- The value nearest to a natural number. -/
def ofNat? (n : Nat) : Option Binary64 := round false n 1

/-- The product, rounded once. -/
def mul? (x y : Binary64) : Option Binary64 :=
  let e := x.exponent + y.exponent
  round (x.negative != y.negative) (x.significand * y.significand * twoTo e) (twoTo (-e))

/-- The quotient by a value other than zero, rounded once. -/
def div? (x y : Binary64) : Option Binary64 :=
  let e := x.exponent - y.exponent
  round (x.negative != y.negative) (x.significand * twoTo e) (y.significand * twoTo (-e))

/-- Whether the value is a zero of either sign. -/
def isZero (x : Binary64) : Bool := x.significand = 0

/-- The value with the given sign put in front. -/
def withSign (negative : Bool) (x : Binary64) : Binary64 := { x with negative }

/-- The value with its fraction cut off. -/
def truncate (x : Binary64) : Int :=
  let n := x.significand * twoTo x.exponent / twoTo (-x.exponent)
  if x.negative then -(n : Int) else n

end Binary64

example : Binary64.ofNat? 9007199254740993 = some ⟨false, 4503599627370496, 1⟩ := by decide +kernel

example : Binary64.round false 1 10 = some ⟨false, 0x1999999999999A, -56⟩ := by decide +kernel

end EventRelay.Decimal
