import EventRelay.Decimal.Shortest

/-!
# How a decimal is laid out

The shortest digits of a value are written positionally, with a point and at least one digit behind
it, while the exponent of the leading digit stays within bounds; outside of them one digit stands
before the point and an exponent follows. What differs between two written forms is collected in one
record, `Layout`; the library has two, `plainTime` for times and `Json.numbers` for JSON.
-/

namespace EventRelay.Decimal

/-- The decisions of a written form. -/
structure Layout where
  /-- The least exponent of the leading digit that is written positionally. -/
  plainFrom : Int
  /-- The least exponent of the leading digit that needs an exponent again. -/
  plainBelow : Int
  /-- Whether an exponent of zero or more carries a plus. -/
  expPlus : Bool
  /-- Where a tie between two shortest decimals goes. -/
  tie : Tie

namespace Layout

/-- Digits and a point, the leading digit having the given exponent. -/
def positional (ds : List Char) (lead : Int) : List Char :=
  if lead < 0 then
    '0' :: '.' :: (List.replicate (-lead - 1).toNat '0' ++ ds)
  else
    let whole := lead.toNat + 1
    if ds.length ≤ whole then
      ds ++ List.replicate (whole - ds.length) '0' ++ ['.', '0']
    else
      ds.take whole ++ '.' :: ds.drop whole

/-- One digit before the point, the others behind it, and the exponent. -/
def scientific (expPlus : Bool) (ds : List Char) (lead : Int) : List Char :=
  let front :=
    match ds with
    | d :: e :: rest => d :: '.' :: e :: rest
    | _ => ds
  let sign := if lead < 0 then ['-'] else if expPlus then ['+'] else []
  front ++ 'e' :: (sign ++ Nat.toDigits 10 lead.natAbs)

/-- The text of the magnitude. -/
def magnitude (f : Layout) (x : Binary64) : List Char :=
  if x.isZero then ['0', '.', '0']
  else
    let d := x.shortest f.tie
    let ds := Nat.toDigits 10 d.digits
    let lead := d.exponent + ds.length - 1
    if f.plainFrom ≤ lead ∧ lead < f.plainBelow then positional ds lead
    else scientific f.expPlus ds lead

/-- The text of a value; a negative zero keeps its sign. -/
def text (f : Layout) (x : Binary64) : List Char :=
  if x.negative then '-' :: f.magnitude x else f.magnitude x

end Layout

end EventRelay.Decimal
