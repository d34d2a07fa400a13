import EventRelay.Text.Numeral

/-!
# Addresses

Internet addresses of both versions and the text that writes them. An address of version 4 is four
numbers, one of version 6 is eight groups of sixteen bits.

Reading is strict: a decimal number has no leading zeros, a group at most four digits, and `::`
stands for at least one group. The last two groups may be written like an address of version 4.
Writing is canonical: the longest run of two or more zero groups is shortened, the first of equally
long ones, and only the mapped addresses of version 4 are written with decimal numbers.
-/

namespace EventRelay.Net

/-- An internet address. -/
inductive IpAddress where
  | v4 (octets : Vector UInt8 4)
  | v6 (groups : Vector UInt16 8)
deriving DecidableEq, Repr

namespace IpAddress

/-! ## Reading -/

/-- The value of a hexadecimal digit. -/
def hexDigit? (c : Char) : Option Nat :=
  if '0' ≤ c ∧ c ≤ '9' then some (c.toNat - 0x30)
  else if 'a' ≤ c ∧ c ≤ 'f' then some (c.toNat - 0x57)
  else if 'A' ≤ c ∧ c ≤ 'F' then some (c.toNat - 0x37)
  else none

/-- Something that was read, with what is left. -/
abbrev Taken (α : Type) := α × List Char

/-- Reads a number of version 4. -/
def octet? (s : List Char) : Option (Taken UInt8) :=
  let digits := s.takeWhile Char.isDigit
  let value := Nat.ofDigitChars 10 digits 0
  if digits = [] ∨ 3 < digits.length ∨ (digits.head? = some '0' ∧ 1 < digits.length) ∨ 255 < value
  then none
  else some (UInt8.ofNat value, s.dropWhile Char.isDigit)

/-- Reads a group of version 6. -/
def group? (s : List Char) : Option (Taken UInt16) :=
  let digits := (s.takeWhile fun c => (hexDigit? c).isSome).filterMap hexDigit?
  if digits = [] ∨ 4 < digits.length then none
  else
    some (UInt16.ofNat (digits.foldl (fun n d => n * 16 + d) 0),
      s.dropWhile fun c => (hexDigit? c).isSome)

/-- Reads a character. -/
def char? (c : Char) : List Char → Option (List Char)
  | d :: s => if d = c then some s else none
  | [] => none

/-- Reads four numbers. -/
def octets? (s : List Char) : Option (Taken (Vector UInt8 4)) := do
  let (a, s) ← octet? s
  let (b, s) ← octet? (← char? '.' s)
  let (c, s) ← octet? (← char? '.' s)
  let (d, s) ← octet? (← char? '.' s)
  return (#v[a, b, c, d], s)

/-- Two numbers as a group. -/
def pair (a b : UInt8) : UInt16 := a.toUInt16 * 256 + b.toUInt16

/-- Groups that were read, and whether the last two were written like an address of version 4. -/
structure Groups where
  groups : List UInt16
  decimal : Bool

/-- Reads at most so many groups, with colons between them. Where a group cannot be read, the colon
in front of it is left. -/
def groups : Nat → Bool → List Char → Taken Groups
  | 0, _, s => (⟨[], false⟩, s)
  | n + 1, first, s =>
    match if first then some s else char? ':' s with
    | none => (⟨[], false⟩, s)
    | some rest =>
      match if 0 < n then octets? rest else none with
      | some (o, rest) => (⟨[pair o[0] o[1], pair o[2] o[3]], true⟩, rest)
      | none =>
        match group? rest with
        | none => (⟨[], false⟩, s)
        | some (g, rest) =>
          let x := groups n false rest
          (⟨g :: x.1.groups, x.1.decimal⟩, x.2)

/-- Eight groups as an address. -/
def ofGroups? (l : List UInt16) : Option IpAddress :=
  if h : l.length = 8 then some (.v6 ⟨l.toArray, by simpa using h⟩) else none

/-- Reads an address of version 6. -/
def v6? (s : List Char) : Option (Taken IpAddress) :=
  let front := groups 8 true s
  let head := front.1.groups
  if head.length = 8 then (ofGroups? head).map fun a => (a, front.2)
  else if front.1.decimal then none
  else
    match front.2 with
    | ':' :: ':' :: rest =>
      let back := groups (7 - head.length) true rest
      let tail := back.1.groups
      let zeros := List.replicate (8 - head.length - tail.length) 0
      (ofGroups? (head ++ zeros ++ tail)).map fun a => (a, back.2)
    | _ => none

/-- The address that a text writes. -/
def ofText? (text : String) : Option IpAddress :=
  let read := ((octets? text.toList).map fun x => (v4 x.1, x.2)).or (v6? text.toList)
  match read with
  | some (a, []) => some a
  | _ => none

/-! ## Writing -/

/-- Four numbers with points between them. -/
def dotted (octets : List UInt8) : String :=
  String.intercalate "." (octets.map fun o => o.toNat.repr)

/-- Groups with colons between them. -/
def colons (groups : List UInt16) : String :=
  String.intercalate ":" (groups.map fun g => String.ofList (Nat.toDigits 16 g.toNat))

/-- The longest run of zeros, the first of equally long ones: where it starts and how long it is. -/
def longestZeros : Nat → List UInt16 → Nat × Nat
  | _, [] => (0, 0)
  | start, g :: l =>
    let here := ((g :: l).takeWhile (· = 0)).length
    let later := longestZeros (start + 1) l
    if here ≠ 0 ∧ later.2 ≤ here then (start, here) else later

/-- The numbers that a group consists of. -/
def halves (g : UInt16) : List UInt8 := [UInt8.ofNat (g.toNat / 256), UInt8.ofNat (g.toNat % 256)]

/-- Groups as text. -/
def ofGroups (l : List UInt16) : String :=
  match l with
  | [0, 0, 0, 0, 0, 0xFFFF, x, y] => "::ffff:" ++ dotted (halves x ++ halves y)
  | _ =>
    let run := longestZeros 0 l
    if 1 < run.2 then colons (l.take run.1) ++ "::" ++ colons (l.drop (run.1 + run.2))
    else colons l

/-- The text of an address. -/
def toText : IpAddress → String
  | .v4 o => dotted o.toList
  | .v6 g => ofGroups g.toList

/-- The text of an address with a port. -/
def withPort (port : Nat) : IpAddress → String
  | .v4 o => s!"{dotted o.toList}:{port}"
  | .v6 g => s!"[{ofGroups g.toList}]:{port}"

example : (ofText? "2001:DB8::0:1:0:0").map toText = some "2001:db8::1:0:0" := by decide +kernel

example : (ofText? "::ffff:1.2.3.4").map (withPort 80) = some "[::ffff:1.2.3.4]:80" := by
  decide +kernel

example : ofText? "01.2.3.4" = none := by decide +kernel

end IpAddress

end EventRelay.Net
