import EventRelay.Decimal.Binary64
import EventRelay.Text.Numeral

/-!
# Decimal literals in text

Lenient decimal text, as people type it: an optional sign, digits with an optional point (at least
one digit on either side of it) and an optional exponent. A literal stands for the exact number it
writes, and `Literal.value?` is the binary64 value nearest to that. The words for infinity and NaN
are not literals here: nothing in the library accepts a value that is not finite.
-/

namespace EventRelay.Decimal

/-- The number (-1)^negative · digits · 10^exponent, as written. -/
structure Literal where
  negative : Bool
  digits : Nat
  exponent : Int
deriving DecidableEq, Repr

namespace Literal

/-- The exponent behind its mark: an optional sign and one or more digits. -/
def exponent? (l : List Char) : Option Int := Text.Numeral.signed? l

/-- The number of digits around an optional point, and what follows them. -/
def mantissa (l : List Char) : List Char × List Char × List Char :=
  let whole := l.takeWhile Char.isDigit
  match l.dropWhile Char.isDigit with
  | '.' :: rest => (whole, rest.takeWhile Char.isDigit, rest.dropWhile Char.isDigit)
  | rest => (whole, [], rest)

/-- Reads a literal without its sign. -/
def unsigned? (negative : Bool) (l : List Char) : Option Literal :=
  let (whole, fraction, rest) := mantissa l
  if whole = [] ∧ fraction = [] then none
  else
    let digits := Nat.ofDigitChars 10 (whole ++ fraction) 0
    match rest with
    | [] => some ⟨negative, digits, -(fraction.length : Int)⟩
    | c :: tail =>
      if c = 'e' ∨ c = 'E' then
        (exponent? tail).map fun e => ⟨negative, digits, e - fraction.length⟩
      else none

/-- Reads a literal; nothing may stand before or behind it. -/
def ofText? : List Char → Option Literal
  | '-' :: l => unsigned? true l
  | '+' :: l => unsigned? false l
  | l => unsigned? false l

/-- The binary64 value nearest to the literal, or nothing when it is too large for the format. The
two bounds decide the far ends without writing out powers of ten: past 10^400 nothing is finite, and
below 10^-400 everything rounds to zero. -/
def value? (x : Literal) : Option Binary64 :=
  let size := (Nat.toDigits 10 x.digits).length + x.exponent
  if x.digits = 0 ∨ size < -400 then some (.zero x.negative)
  else if 400 < size then none
  else Binary64.round x.negative (x.digits * tenTo x.exponent) (tenTo (-x.exponent))

end Literal

example :
    ((Literal.ofText? "-.5e1".toList).bind Literal.value?).map Binary64.truncate = some (-5) := by
  decide +kernel

end EventRelay.Decimal
