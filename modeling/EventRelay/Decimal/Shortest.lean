import EventRelay.Decimal.Binary64

/-!
# The fewest digits that read back

Every positive binary64 value stands for an interval of reals, those that round to it. Among the
decimals in that interval the ones with the fewest digits are wanted, and of those the nearest to
the value. All comparisons are exact, on naturals.

For one digit, two digits and so on, the value's two neighbours on the decimal grid of that many
digits are tried (`candidate`): if any point of a grid lies in the interval, one of these two does.
The first grid with a hit wins. Seventeen digits always suffice; were they not to, the exact decimal
expansion is given, which is in the interval too.
-/

namespace EventRelay.Decimal

/-- The decimal digits · 10^exponent. -/
structure Scaled where
  digits : Nat
  exponent : Int
deriving DecidableEq, Repr

/-- Which neighbour an exact tie between two shortest decimals goes to. -/
inductive Tie where
  | up
  | even
deriving DecidableEq, Repr

/-- Whether a · 10^i ≤ n · 2^j, decided exactly. -/
def decimalLe (a : Nat) (i : Int) (n : Nat) (j : Int) : Bool :=
  a * tenTo i * twoTo (-j) ≤ n * twoTo j * tenTo (-i)

/-- Whether n · 2^j ≤ a · 10^i, decided exactly. -/
def binaryLe (n : Nat) (j : Int) (a : Nat) (i : Int) : Bool :=
  n * twoTo j * tenTo (-i) ≤ a * tenTo i * twoTo (-j)

namespace Binary64

/-- Whether a decimal lies among the reals that round to the magnitude of a value. The ends of that
interval are the midpoints to the two neighbouring values; they belong to it when the value's
significand is even. Below a power of two the lower neighbour is half as far away. -/
def readsBack (x : Binary64) (d : Scaled) : Bool :=
  let m := x.significand
  let narrow := m = twoTo 52 && -1074 < x.exponent
  let low := if narrow then 4 * m - 1 else 4 * m - 2
  let j := x.exponent - 2
  if m % 2 = 0 then
    binaryLe low j d.digits d.exponent && decimalLe d.digits d.exponent (4 * m + 2) j
  else
    !decimalLe d.digits d.exponent low j && !binaryLe (4 * m + 2) j d.digits d.exponent

/-- The magnitude as a fraction of naturals, with the unit 10^grid. -/
def onGrid (x : Binary64) (grid : Int) : Nat × Nat :=
  (x.significand * twoTo x.exponent * tenTo (-grid), twoTo (-x.exponent) * tenTo grid)

/-- How many decimal digits stand before the point; negative when zeros follow it. The least
positive value is above 10^-400, so the digits of the value in that unit can be counted. -/
def pointPosition (x : Binary64) : Int :=
  let (num, den) := x.onGrid (-400)
  (Nat.toDigits 10 (num / den)).length - 400

/-- The neighbour on a decimal grid that reads back, the nearer one if both do. -/
def candidate (tie : Tie) (x : Binary64) (grid : Int) : Option Scaled :=
  let (num, den) := x.onGrid grid
  let q := num / den
  let low : Scaled := ⟨q, grid⟩
  let high : Scaled := ⟨q + 1, grid⟩
  match x.readsBack low, x.readsBack high with
  | false, false => none
  | true, false => some low
  | false, true => some high
  | true, true =>
    match compare (2 * (num % den)) den with
    | .lt => some low
    | .gt => some high
    | .eq => if tie = .even ∧ q % 2 = 0 then some low else some high

/-- The same decimal without zeros at the end of its digits. -/
def stripZeros : Nat → Scaled → Scaled
  | 0, d => d
  | fuel + 1, d =>
    if d.digits ≠ 0 ∧ d.digits % 10 = 0 then stripZeros fuel ⟨d.digits / 10, d.exponent + 1⟩ else d

/-- The fewest decimal digits that read back as the magnitude, the nearest of those to it. -/
def shortest (tie : Tie) (x : Binary64) : Scaled :=
  if x.isZero then ⟨0, 0⟩
  else
    let k := x.pointPosition
    match (List.range 17).findSome? fun (n : Nat) => x.candidate tie (k - (n + 1)) with
    | some d => stripZeros 20 d
    | none =>
      let (num, den) := x.onGrid (min x.exponent 0)
      ⟨num / den, min x.exponent 0⟩

end Binary64

example : ((Binary64.round false 1 10).map (Binary64.shortest .up)) = some ⟨1, -1⟩ := by
  decide +kernel

end EventRelay.Decimal
