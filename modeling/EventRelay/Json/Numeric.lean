import EventRelay.Json.Fault
import EventRelay.Json.Value

/-!
# Reading JSON numbers

An integer literal that fits 64 bits is that integer. Every other literal, and the literal `-0`,
becomes a binary64 value, and not the nearest one: the digits are gathered in a 64-bit significand
for as long as they fit, later digits before the point only raise the exponent, later digits behind
it are dropped, and the significand is then scaled by one power of ten, itself rounded (`scale`).

`Scan` is what the eye sees of a literal; its value is a function of that alone, except that an
exponent too large for 32 bits is refused at the digit that makes it so.
-/

namespace EventRelay.Json

/-- A value with the bytes behind it, of which there are fewer than before it was read. -/
structure Taken (α : Type) (s : Bytes) where
  value : α
  rest : Bytes
  shorter : rest.length < s.length

/-- What was read, if the bytes before it are not counted. -/
def Taken.of_le {α : Type} {s t : Bytes} (h : s.length ≤ t.length) (x : Taken α s) : Taken α t :=
  ⟨x.value, x.rest, Nat.lt_of_lt_of_le x.shorter h⟩

namespace Numeric

/-- Whether a byte is an ASCII digit. -/
def isDigit (b : UInt8) : Bool := 0x30 ≤ b && b ≤ 0x39

/-- The digits at the front. -/
def digits (s : Bytes) : List Nat := (s.takeWhile isDigit).map fun b => b.toNat - 0x30

/-- What stands behind the digits at the front. -/
def afterDigits (s : Bytes) : Bytes := s.dropWhile isDigit

theorem length_afterDigits_le (s : Bytes) : (afterDigits s).length ≤ s.length :=
  (List.dropWhile_sublist _).length_le

/-- The significand extended by as many digits as 64 bits hold, and how many those were. -/
def gather (significand : Nat) : List Nat → Nat × Nat
  | [] => (significand, 0)
  | d :: ds =>
    if significand * 10 + d < Text.Numeral.wordSize 64 then
      let (m, n) := gather (significand * 10 + d) ds
      (m, n + 1)
    else (significand, 0)

/-- The power of ten as a binary64 value, for exponents up to 308. -/
def powerOfTen (n : Nat) : Decimal.Binary64 :=
  (Decimal.Binary64.round false (Decimal.tenTo n) 1).getD (.zero false)

/-- The value times 10^exponent: divided by 10^308 until the exponent is at least -308 or the value
is zero, then multiplied or divided once. Nothing when the product is too large. -/
def scale (x : Decimal.Binary64) (exponent : Int) : Option Decimal.Binary64 :=
  if exponent < -308 then
    if x.isZero then some x
    else
      match x.div? (powerOfTen 308) with
      | some y => scale y (exponent + 308)
      | none => none
  else if exponent < 0 then x.div? (powerOfTen exponent.natAbs)
  else if exponent ≤ 308 then x.mul? (powerOfTen exponent.natAbs)
  else if x.isZero then some x
  else none
termination_by (-exponent).toNat
decreasing_by omega

/-- The exponent of a literal: its sign and its digits. -/
structure Exponent where
  negative : Bool
  digits : List Nat

/-- The value of the digits, or how many of them it takes to leave 31 bits. -/
def Exponent.magnitude (e : Exponent) : Nat ⊕ Nat :=
  go 0 0 e.digits
where
  /-- The value of `n` followed by digits, after `taken` digits. -/
  go (n taken : Nat) : List Nat → Nat ⊕ Nat
    | [] => .inl n
    | d :: ds =>
      if n * 10 + d < Text.Numeral.wordSize 31 then go (n * 10 + d) (taken + 1) ds
      else .inr (taken + 1)

/-- The parts of a literal behind its sign. -/
structure Scan where
  whole : List Nat
  /-- The digits behind the point, if there is one. -/
  fraction : Option (List Nat)
  /-- The exponent with the bytes behind its sign, if there is one. -/
  exponent : Option (Exponent × Bytes)
  rest : Bytes

/-- The significand and the power of ten that the digits stand for. -/
def Scan.parts (x : Scan) : Nat × Int :=
  let (m, n) := gather 0 x.whole
  let dropped : Int := (x.whole.length - n : Nat)
  match x.fraction with
  | none => (m, dropped)
  | some ds =>
    let (m, n) := gather m ds
    (m, dropped - n)

/-- Scales a significand, naming the place behind the literal if the result is too large. -/
def scaled (negative : Bool) (significand : Nat) (exponent : Int) (rest : Bytes) :
    Except Fault Number :=
  match (Decimal.Binary64.ofNat? significand).bind (scale · exponent) with
  | some x => .ok (.real (x.withSign negative))
  | none => .error ⟨.numberTooLarge, rest⟩

/-- The value of a literal. -/
def Scan.value (negative : Bool) (x : Scan) : Except Fault Number :=
  let (m, e) := x.parts
  match x.exponent with
  | some (exponent, digits) =>
    match exponent.magnitude with
    | .inl n => scaled negative m (if exponent.negative then e - n else e + n) x.rest
    | .inr taken =>
      if m ≠ 0 ∧ exponent.negative = false then .error ⟨.numberTooLarge, digits.drop taken⟩
      else .ok (.real (.zero negative))
  | none =>
    if x.fraction.isNone ∧ e = 0 then
      if negative = false then .ok (.integer m)
      else if m = 0 ∨ Text.Numeral.wordSize 63 < m then scaled true m 0 x.rest
      else .ok (.integer (-(m : Int)))
    else scaled negative m e x.rest

/-- Whether an exponent is negative, and what follows its optional sign. -/
def exponentSign : Bytes → Bool × Bytes
  | [] => (false, [])
  | b :: t => if b = 0x2B then (false, t) else if b = 0x2D then (true, t) else (false, b :: t)

theorem length_exponentSign (s : Bytes) : (exponentSign s).2.length ≤ s.length := by
  unfold exponentSign
  split
  · simp
  · split
    · simp
    · split <;> simp

/-- Reads an exponent behind its mark. -/
def scanExponent (whole : List Nat) (fraction : Option (List Nat)) (s : Bytes) :
    Except Fault Scan :=
  let negative := (exponentSign s).1
  match (exponentSign s).2 with
  | [] => .error ⟨.unfinishedValue, []⟩
  | b :: t =>
    if isDigit b then
      .ok ⟨whole, fraction, some (⟨negative, digits (b :: t)⟩, b :: t), afterDigits (b :: t)⟩
    else .error ⟨.badNumber, t⟩

/-- Whether a byte marks an exponent. -/
def isExponentMark (b : UInt8) : Bool := b = 0x65 || b = 0x45

/-- Reads what follows the digits before the point. -/
def scanTail (whole : List Nat) (s : Bytes) : Except Fault Scan :=
  match s with
  | 0x2E :: t =>
    match t with
    | [] => .error ⟨.unfinishedValue, []⟩
    | b :: u =>
      if isDigit b then
        match afterDigits t with
        | c :: v =>
          if isExponentMark c then scanExponent whole (some (digits t)) v
          else .ok ⟨whole, some (digits t), none, c :: v⟩
        | [] => .ok ⟨whole, some (digits t), none, []⟩
      else .error ⟨.badNumber, u⟩
  | b :: t =>
    if isExponentMark b then scanExponent whole none t else .ok ⟨whole, none, none, b :: t⟩
  | [] => .ok ⟨whole, none, none, []⟩

/-- Reads a literal behind its sign. A zero in front stands alone. -/
def scan (s : Bytes) : Except Fault Scan :=
  match s with
  | [] => .error ⟨.unfinishedValue, []⟩
  | b :: t =>
    if b = 0x30 then
      match t with
      | c :: u => if isDigit c then .error ⟨.badNumber, u⟩ else scanTail [0] t
      | [] => scanTail [0] t
    else if isDigit b then scanTail (digits s) (afterDigits s)
    else .error ⟨.badNumber, t⟩

/-! ## What is left is shorter -/

theorem length_scanExponent {whole : List Nat} {fraction : Option (List Nat)} {s : Bytes} {x : Scan}
    (h : scanExponent whole fraction s = .ok x) : x.rest.length ≤ s.length := by
  have hs := length_exponentSign s
  simp only [scanExponent] at h
  split at h
  · cases h
  · rename_i b t hbt
    rw [hbt] at hs
    split at h
    · cases h; exact Nat.le_trans (length_afterDigits_le _) hs
    · cases h

theorem length_scanTail {whole : List Nat} {s : Bytes} {x : Scan} (h : scanTail whole s = .ok x) :
    x.rest.length ≤ s.length := by
  unfold scanTail at h
  split at h
  · rename_i t
    split at h
    · cases h
    · rename_i b u
      split at h
      · have hd := length_afterDigits_le (b :: u)
        split at h
        · rename_i c v hv
          rw [hv] at hd
          split at h
          · have := length_scanExponent h
            simp only [List.length_cons] at hd ⊢
            omega
          · cases h; simp only [List.length_cons] at hd ⊢; omega
        · cases h; simp
      · cases h
  · rename_i b t _
    split at h
    · have := length_scanExponent h
      simp only [List.length_cons]; omega
    · cases h; exact Nat.le_refl _
  · cases h; exact Nat.le_refl _

theorem length_scan {s : Bytes} {x : Scan} (h : scan s = .ok x) : x.rest.length < s.length := by
  unfold scan at h
  split at h
  · cases h
  · rename_i b t
    split at h
    · split at h
      · split at h
        · cases h
        · have := length_scanTail h; simp only [List.length_cons] at this ⊢; omega
      · have := length_scanTail h; simp only [List.length_cons] at this ⊢; omega
    · split at h
      · rename_i hb
        have := length_scanTail h
        have hd : (afterDigits (b :: t)).length ≤ t.length := by
          simp only [afterDigits, List.dropWhile_cons, hb, ↓reduceIte]
          exact length_afterDigits_le t
        simp only [List.length_cons]; omega
      · cases h

/-- Reads a number behind its sign. -/
def read (negative : Bool) (s : Bytes) : Except Fault (Taken Number s) :=
  match h : scan s with
  | .error f => .error f
  | .ok x =>
    match x.value negative with
    | .error f => .error f
    | .ok n => .ok ⟨n, x.rest, length_scan h⟩

end Numeric

end EventRelay.Json
