import EventRelay.Json.Reader
import EventRelay.Proofs.Decimal.Rounding
import EventRelay.Proofs.Json.Sequence
import EventRelay.Proofs.Text.Numeral
import EventRelay.Proofs.Text.Utf8

/-!
# Integers in JSON

An integer literal is an optional minus and digits, of any length (`IntegerLiteral`). What it is
read as is the integer itself as long as that fits 64 bits, unsigned or with its sign; `-0` is a
negative zero, and past 64 bits nothing exact is left, but what there is stays large (`OfInteger`,
`ofInteger_of_takes`). Literals within 64 bits are never refused (`takes_integer`).
-/

namespace EventRelay.Json

open Text
open Text.Numeral (Decimal wordSize wordSize_eq)

/-- The bytes of an integer literal, and its number: a minus or nothing, and then digits, of which
the first is a zero only if it stands alone. -/
inductive IntegerLiteral : Bytes → ℤ → Prop
  | signed (negative : Bool) {digits : List Char} {n : ℕ} (h : Decimal digits n)
    (hzero : digits.head? = some '0' → digits = ['0']) :
    IntegerLiteral
      (Utf8.encode (String.ofList ((if negative then ['-'] else []) ++ digits)))
      (if negative then -n else n)

/-- What an integer is read as. -/
inductive OfInteger (z : ℤ) : Number → Prop
  | exact : OfInteger z (.integer z)
  | zero (hz : z = 0) : OfInteger z (.real (.zero true))
  | large {x : Decimal.Binary64} (hz : ¬ (-2 ^ 63 ≤ z ∧ z < 2 ^ 63)) (hx : 2 ^ 60 ≤ x.magnitude) :
    OfInteger z (.real x)

namespace Numeric

/-- The digits as the reader sees them. -/
def seen (digits : List Char) : List ℕ := digits.map fun c => c.toNat - 48

/-- Either all digits fit the significand, or it is nearly full and the number does not fit. -/
theorem gather_cases {m : ℕ} (hm : m < 2 ^ 64) {digits : List Char}
    (hdigits : ∀ c ∈ digits, c.isDigit = true) :
    gather m (seen digits) = (Nat.ofDigitChars 10 digits m, digits.length) ∧
        Nat.ofDigitChars 10 digits m < 2 ^ 64 ∨
      (gather m (seen digits)).2 < digits.length ∧ 2 ^ 64 ≤ (gather m (seen digits)).1 * 10 + 9 ∧
        2 ^ 64 ≤ Nat.ofDigitChars 10 digits m := by
  induction digits generalizing m with
  | nil => exact .inl ⟨rfl, hm⟩
  | cons c digits ih =>
    have hc : c.toNat ≤ 57 := (Char.isDigit_iff_toNat.1 (hdigits c List.mem_cons_self)).2
    have hnumber : Nat.ofDigitChars 10 (c :: digits) m =
        Nat.ofDigitChars 10 digits (m * 10 + (c.toNat - 48)) := by
      rw [Nat.ofDigitChars_cons, mul_comm]
      rfl
    have hseen : seen (c :: digits) = (c.toNat - 48) :: seen digits := rfl
    rw [hnumber, hseen, gather, wordSize_eq]
    split
    · next hfits =>
      have hrest := ih hfits fun c hc => hdigits c (List.mem_cons_of_mem _ hc)
      generalize gather (m * 10 + (c.toNat - 48)) (seen digits) = g at hrest ⊢
      obtain ⟨k, used⟩ := g
      dsimp only at hrest ⊢
      rcases hrest with ⟨hall, hlt⟩ | ⟨hused, hfull⟩
      · cases hall
        exact .inl ⟨rfl, hlt⟩
      · exact .inr ⟨Nat.succ_lt_succ hused, hfull⟩
    · next hfull =>
      have hle := not_lt.1 hfull
      rw [Nat.ofDigitChars_eq_ofDigitChars_zero]
      have hpos : 0 < 10 ^ digits.length := Nat.pow_pos (by decide)
      refine .inr ⟨Nat.succ_pos _, by omega, ?_⟩
      exact hle.trans ((Nat.le_mul_of_pos_left _ hpos).trans (Nat.le_add_right _ _))

theorem scanTail_whole {whole : List ℕ} {s : Bytes} {x : Scan} (h : scanTail whole s = .ok x)
    (hrest : s.length ≤ x.rest.length) : x = ⟨whole, none, none, s⟩ := by
  unfold scanTail at h
  split at h
  · next t =>
    have hshort : x.rest.length ≤ t.length := by
      split at h
      · cases h
      · next b u =>
        split at h
        · have hd := length_afterDigits_le (b :: u)
          split at h
          · next c v hv =>
            rw [hv] at hd
            split at h
            · have he := length_scanExponent h
              simp only [List.length_cons] at hd ⊢
              omega
            · cases h
              exact hd
          · cases h
            exact Nat.zero_le _
        · cases h
    simp only [List.length_cons] at hrest
    omega
  · next b t _ =>
    split at h
    · have he := length_scanExponent h
      simp only [List.length_cons] at hrest
      omega
    · cases h
      rfl
  · cases h
    rfl

section Digits

variable {digits : List Char} {n : ℕ} {rest : Bytes}

theorem encode_digits (h : Decimal digits n) :
    Utf8.encode (String.ofList digits) = digits.map fun c => UInt8.ofNat c.toNat := by
  apply Utf8.encode_ofList_ascii
  intro c hc
  have hle : c.toNat ≤ 57 := (Char.isDigit_iff_toNat.1 (h.isDigit c hc)).2
  omega

theorem toNat_digit {c : Char} (hc : c.isDigit = true) :
    (UInt8.ofNat c.toNat).toNat = c.toNat ∧ isDigit (UInt8.ofNat c.toNat) = true := by
  have hrange : 48 ≤ c.toNat ∧ c.toNat ≤ 57 := Char.isDigit_iff_toNat.1 hc
  have hbyte : (UInt8.ofNat c.toNat).toNat = c.toNat := Utf8.toNat_ofNat_of_lt (by omega)
  refine ⟨hbyte, ?_⟩
  rw [isDigit, Bool.and_eq_true, decide_eq_true_eq, decide_eq_true_eq, UInt8.le_iff_toNat_le,
    UInt8.le_iff_toNat_le, hbyte]
  exact hrange

theorem isDigit_of_mem_encode (h : Decimal digits n) {b : UInt8}
    (hb : b ∈ Utf8.encode (String.ofList digits)) : isDigit b = true := by
  rw [encode_digits h] at hb
  obtain ⟨c, hc, rfl⟩ := List.mem_map.1 hb
  exact (toNat_digit (h.isDigit c hc)).2

theorem ne_of_isDigit {b c : UInt8} (hb : isDigit b = true) (hc : isDigit c = false) : b ≠ c := by
  rintro rfl
  rw [hc] at hb
  cases hb

theorem digits_encode (h : Decimal digits n) (rest : Bytes) :
    Numeric.digits (Utf8.encode (String.ofList digits) ++ rest) =
      seen digits ++ Numeric.digits rest := by
  rw [Numeric.digits, List.takeWhile_append_of_pos fun b hb => isDigit_of_mem_encode h hb,
    List.map_append, ← Numeric.digits, encode_digits h, List.map_map]
  congr 1
  apply List.map_congr_left
  intro c hc
  change (UInt8.ofNat c.toNat).toNat - 48 = _
  rw [(toNat_digit (h.isDigit c hc)).1]

theorem afterDigits_encode (h : Decimal digits n) (rest : Bytes) :
    afterDigits (Utf8.encode (String.ofList digits) ++ rest) = afterDigits rest := by
  rw [afterDigits, List.dropWhile_append_of_pos fun b hb => isDigit_of_mem_encode h hb, afterDigits]

theorem digits_of_afterDigits {s : Bytes} (h : s.length ≤ (afterDigits s).length) :
    afterDigits s = s ∧ Numeric.digits s = [] := by
  have hall : afterDigits s = s := (List.dropWhile_sublist isDigit).eq_of_length_le h
  have hsplit := List.takeWhile_append_dropWhile (p := isDigit) (l := s)
  have hnone : s.takeWhile isDigit = [] := by
    have hlength := congrArg List.length hsplit
    rw [List.length_append] at hlength
    unfold afterDigits at hall
    rw [hall] at hlength
    exact List.length_eq_zero_iff.1 (by omega)
  exact ⟨hall, by rw [Numeric.digits, hnone]; rfl⟩

theorem scan_encode (h : Decimal digits n) (hzero : digits.head? = some '0' → digits = ['0'])
    (rest : Bytes) :
    scan (Utf8.encode (String.ofList digits) ++ rest) =
      if digits = ['0'] ∧ ∃ b ∈ rest.head?, isDigit b = true then .error ⟨.badNumber, rest.tail⟩
      else scanTail (seen digits ++ Numeric.digits rest) (afterDigits rest) := by
  obtain ⟨c, l, rfl⟩ := List.exists_cons_of_ne_nil h.ne_nil
  have hdigits := digits_encode h rest
  have hafter := afterDigits_encode h rest
  by_cases hc : c = '0'
  · subst hc
    obtain rfl : l = [] := (List.cons.inj (hzero rfl)).2
    have hbyte : Utf8.encode (String.ofList ['0']) = [0x30] := by decide
    rw [hbyte, List.singleton_append, scan.eq_def]
    dsimp only
    rw [if_pos rfl]
    cases rest with
    | nil => rfl
    | cons b u =>
      by_cases hb : isDigit b = true
      · rw [if_pos ⟨rfl, b, rfl, hb⟩]
        simp only [if_pos hb, List.tail_cons]
      · rw [if_neg (by rintro ⟨-, b', ⟨⟩, hb'⟩; exact hb hb')]
        simp only [if_neg hb, Numeric.digits, afterDigits, List.takeWhile_cons_of_neg hb,
          List.dropWhile_cons_of_neg hb]
        rfl
  · have hfirst := toNat_digit (h.isDigit c List.mem_cons_self)
    have hbyte : ¬ UInt8.ofNat c.toNat = 0x30 := by
      intro heq
      apply hc
      rw [heq] at hfirst
      exact (Char.ofNat_toNat c).symm.trans (congrArg Char.ofNat hfirst.1.symm)
    rw [encode_digits h, List.map_cons, List.cons_append] at hdigits hafter ⊢
    rw [scan.eq_def]
    dsimp only
    rw [if_neg hbyte, if_pos hfirst.2, hdigits, hafter,
      if_neg fun hlone => hc (List.cons.inj hlone.1).1]

/-- What is read as an integer literal has its digits, and neither a fraction nor an exponent. -/
theorem scan_of_rest (h : Decimal digits n) (hzero : digits.head? = some '0' → digits = ['0'])
    {x : Scan} (hscan : scan (Utf8.encode (String.ofList digits) ++ rest) = .ok x)
    (hrest : x.rest = rest) : x = ⟨seen digits, none, none, rest⟩ := by
  rw [scan_encode h hzero] at hscan
  split at hscan
  · cases hscan
  · have hle : rest.length ≤ (afterDigits rest).length := by
      have hshort := length_scanTail hscan
      rwa [hrest] at hshort
    obtain ⟨hafter, hdigits⟩ := digits_of_afterDigits hle
    rw [hafter, hdigits, List.append_nil] at hscan
    exact scanTail_whole hscan (le_of_eq (congrArg List.length hrest.symm))

/-- Whether a number cannot go on with these bytes. -/
def EndsNumber (rest : Bytes) : Prop :=
  ∀ b ∈ rest.head?, isDigit b = false ∧ b ≠ 0x2E ∧ isExponentMark b = false

theorem scan_of_ends (h : Decimal digits n) (hzero : digits.head? = some '0' → digits = ['0'])
    (hends : EndsNumber rest) :
    scan (Utf8.encode (String.ofList digits) ++ rest) = .ok ⟨seen digits, none, none, rest⟩ := by
  have hlone : ¬ (digits = ['0'] ∧ ∃ b ∈ rest.head?, isDigit b = true) := by
    rintro ⟨-, b, hb, hdigit⟩
    rw [(hends b hb).1] at hdigit
    cases hdigit
  rw [scan_encode h hzero, if_neg hlone]
  cases rest with
  | nil =>
    change scanTail (seen digits ++ []) [] = _
    rw [List.append_nil]
    rfl
  | cons b t =>
    obtain ⟨hdigit, hpoint, hmark⟩ := hends b rfl
    have hstop : ¬ isDigit b = true := by rw [hdigit]; decide
    rw [Numeric.digits, afterDigits, List.takeWhile_cons_of_neg hstop,
      List.dropWhile_cons_of_neg hstop, List.map_nil, List.append_nil]
    unfold scanTail
    split
    · next heq =>
      cases heq
      exact absurd rfl hpoint
    · next heq =>
      cases heq
      rw [hmark]
      rfl
    · next heq => cases heq

end Digits

/-! ## Scaling -/

theorem one_le_powerOfTen {n : ℕ} (hn : n ≤ 308) : 1 ≤ (powerOfTen n).magnitude := by
  cases hround : Decimal.Binary64.round false (Decimal.tenTo n) 1 with
  | none =>
    have hlarge := Decimal.Binary64.overflow_le_of_round Nat.one_pos hround
    have hpower : Decimal.tenTo n ≤ Decimal.tenTo 308 := Decimal.tenTo_le_tenTo (by omega)
    have hlast : Decimal.tenTo 308 * 2 < (2 ^ 54 - 1) * Decimal.twoTo 971 := by decide +kernel
    have hlt := Nat.lt_of_le_of_lt (Nat.mul_le_mul_right 2 hpower) hlast
    rw [← Nat.cast_lt (α := ℚ), Nat.cast_mul, Nat.cast_mul] at hlt
    have hvalue : (2 : ℚ) ^ (971 : ℤ) = Decimal.twoTo 971 := by
      rw [Decimal.cast_twoTo, Decimal.twoTo_eq_one (by decide), Nat.cast_one, mul_one]
    rw [Nat.cast_one, div_one, hvalue] at hlarge
    push_cast at hlt
    linarith
  | some x =>
    have hnearest := (Decimal.Binary64.nearest_of_round Nat.one_pos hround).2
    have hone : Decimal.Binary64.IsFinite 1 :=
      ⟨1, 0, by decide, by decide, by decide, by norm_num⟩
    rw [powerOfTen, hround, Option.getD_some]
    refine hnearest.le_magnitude hone ?_
    rw [Nat.cast_one, div_one]
    exact_mod_cast Decimal.tenTo_pos n

/-- A large significand stays large, whatever the power of ten. -/
theorem large_of_scaled {negative : Bool} {m : ℕ} {e : ℤ} {rest : Bytes} {x : Number} (he : 0 ≤ e)
    (hm : 2 ^ 60 ≤ m) (h : scaled negative m e rest = .ok x) :
    ∃ y, x = .real y ∧ 2 ^ 60 ≤ y.magnitude := by
  have hbound : Decimal.Binary64.IsFinite (2 ^ 60) :=
    ⟨1, 60, by decide, by decide, by decide, by norm_num⟩
  unfold scaled at h
  split at h
  · next y hy =>
    cases h
    refine ⟨_, rfl, ?_⟩
    change 2 ^ 60 ≤ y.magnitude
    obtain ⟨y', hwhole, hscale⟩ := Option.bind_eq_some_iff.1 hy
    have hlarge : 2 ^ 60 ≤ y'.magnitude := by
      refine (Decimal.Binary64.nearest_of_ofNat? hwhole).le_magnitude hbound ?_
      exact_mod_cast hm
    rw [scale, if_neg (by omega), if_neg (by omega)] at hscale
    split at hscale
    · next hpower =>
      refine (Decimal.Binary64.nearest_of_mul? hscale).le_magnitude hbound ?_
      have hone := one_le_powerOfTen (n := e.natAbs) (by omega)
      calc (2 : ℚ) ^ 60 ≤ y'.magnitude * 1 := by rwa [mul_one]
        _ ≤ y'.magnitude * (powerOfTen e.natAbs).magnitude := by gcongr
    · split at hscale
      · cases hscale
        exact hlarge
      · cases hscale
  · cases h

theorem scaled_zero (rest : Bytes) : scaled true 0 0 rest = .ok (.real (.zero true)) := by
  have hproduct : (Decimal.Binary64.zero false).mul? (powerOfTen 0) =
      some (.zero (false != (powerOfTen 0).negative)) := by
    simp only [Decimal.Binary64.mul?, Decimal.Binary64.zero, Decimal.Binary64.round, Nat.zero_mul,
      if_true]
  have hscale : scale (Decimal.Binary64.zero false) 0 =
      some (.zero (false != (powerOfTen 0).negative)) := by
    rw [scale, if_neg (by omega), if_neg (by omega), if_pos (by omega)]
    exact hproduct
  have hwhole : Decimal.Binary64.ofNat? 0 = some (.zero false) := rfl
  rw [scaled, hwhole, Option.bind_some, hscale]
  rfl

/-! ## The value of the digits -/

section Value

variable {digits : List Char} {n : ℕ} {rest : Bytes} {negative : Bool} {x : Number}

/-- The digits that are gathered, and how many are not. -/
theorem parts_seen (digits : List Char) (rest : Bytes) :
    Scan.parts ⟨seen digits, none, none, rest⟩ =
      ((gather 0 (seen digits)).1, ((digits.length - (gather 0 (seen digits)).2 : ℕ) : ℤ)) := by
  have hlength : (seen digits).length = digits.length := List.length_map _
  rw [← hlength]
  rfl

/-- A number of 64 bits is itself, unless it is a zero with a minus or needs the 64th bit. -/
theorem value_of_fits (h : Decimal digits n) (hn : n < 2 ^ 64) (negative : Bool) (rest : Bytes) :
    Scan.value negative ⟨seen digits, none, none, rest⟩ =
      if negative = false then .ok (.integer n)
      else if n = 0 ∨ wordSize 63 < n then scaled true n 0 rest
      else .ok (.integer (-n)) := by
  have hall : gather 0 (seen digits) = (n, digits.length) := by
    have hcases := gather_cases (Nat.two_pow_pos 64) h.isDigit
    rw [h.value] at hcases
    rcases hcases with ⟨hall, -⟩ | ⟨-, -, hlarge⟩
    · exact hall
    · omega
  unfold Scan.value
  rw [parts_seen, hall, Nat.sub_self]
  dsimp only
  rw [if_pos ⟨rfl, rfl⟩]

/-- Of a larger number the first digits are scaled. -/
theorem value_of_not_fits (h : Decimal digits n) (hn : 2 ^ 64 ≤ n) (negative : Bool)
    (rest : Bytes) :
    ∃ m e, 2 ^ 60 ≤ m ∧ 0 ≤ e ∧
      Scan.value negative ⟨seen digits, none, none, rest⟩ = scaled negative m e rest := by
  have hcases := gather_cases (Nat.two_pow_pos 64) h.isDigit
  rw [h.value] at hcases
  rcases hcases with ⟨-, hlt⟩ | ⟨hused, hfull, -⟩
  · omega
  · refine ⟨(gather 0 (seen digits)).1, (digits.length - (gather 0 (seen digits)).2 : ℕ),
      by omega, Int.natCast_nonneg _, ?_⟩
    unfold Scan.value
    rw [parts_seen]
    dsimp only
    rw [if_neg (by omega)]

theorem ofInteger_of_value (h : Decimal digits n)
    (hvalue : Scan.value negative ⟨seen digits, none, none, rest⟩ = .ok x) :
    OfInteger (if negative then -n else n) x := by
  by_cases hn : n < 2 ^ 64
  · rw [value_of_fits h hn] at hvalue
    cases negative with
    | false =>
      cases hvalue
      exact .exact
    | true =>
      rw [if_neg (by decide)] at hvalue
      by_cases hreal : n = 0 ∨ wordSize 63 < n
      · rw [if_pos hreal] at hvalue
        rcases hreal with hzero | hbelow
        · rw [hzero, scaled_zero] at hvalue
          cases hvalue
          exact .zero (by rw [hzero]; rfl)
        · rw [wordSize_eq] at hbelow
          obtain ⟨y, rfl, hy⟩ := large_of_scaled le_rfl (by omega) hvalue
          refine .large ?_ hy
          rw [if_pos rfl]
          omega
      · rw [if_neg hreal] at hvalue
        cases hvalue
        exact .exact
  · obtain ⟨m, e, hm, he, hscaled⟩ := value_of_not_fits h (not_lt.1 hn) negative rest
    rw [hscaled] at hvalue
    obtain ⟨y, rfl, hy⟩ := large_of_scaled he hm hvalue
    refine .large ?_ hy
    split <;> omega

theorem ofInteger_of_read (h : Decimal digits n) (hzero : digits.head? = some '0' → digits = ['0'])
    (htakes : Takes (read negative) (Utf8.encode (String.ofList digits) ++ rest) x rest) :
    OfInteger (if negative then -n else n) x := by
  obtain ⟨hlt, hread⟩ := htakes
  unfold read at hread
  split at hread
  · cases hread
  · next y hy =>
    split at hread
    · cases hread
    · next hvalue =>
      simp only [Except.ok.injEq, Taken.mk.injEq] at hread
      obtain ⟨rfl, hrest⟩ := hread
      rw [scan_of_rest h hzero hy hrest] at hvalue
      exact ofInteger_of_value h hvalue

/-- What fits 64 bits, or 63 with a minus in front, is not refused. -/
theorem exists_value (h : Decimal digits n) (negative : Bool) (hn : n < 2 ^ 64)
    (hneg : negative = true → n ≤ 2 ^ 63) (rest : Bytes) :
    ∃ x, Scan.value negative ⟨seen digits, none, none, rest⟩ = .ok x := by
  rw [value_of_fits h hn]
  cases negative with
  | false => exact ⟨_, rfl⟩
  | true =>
    rw [if_neg (by decide)]
    by_cases hreal : n = 0 ∨ wordSize 63 < n
    · rcases hreal with rfl | hlarge
      · exact ⟨_, by rw [if_pos (.inl rfl), scaled_zero]⟩
      · rw [wordSize_eq] at hlarge
        exact absurd hlarge (not_lt.2 (hneg rfl))
    · exact ⟨_, if_neg hreal⟩

end Value

end Numeric

/-! ## Integers as values -/

section Values

variable {b : UInt8} {t rest literal : Bytes} {v : Json} {z : ℤ}

theorem takes_valueWith_iff {nested : Option (Reader Json)} (hb : isSpace b = false) :
    Takes (valueWith nested) (b :: t) v rest ↔
      ∃ hlt, valueFrom nested b t = .ok ⟨v, rest, hlt⟩ := by
  have hspace : skipSpace (b :: t) = b :: t := List.dropWhile_cons_of_neg (by rw [hb]; decide)
  constructor
  · intro h
    obtain ⟨b', t', hlt, hs, hread⟩ := valueFrom_of_takes h
    cases hspace.symm.trans hs
    exact ⟨hlt, hread⟩
  · rintro ⟨hlt, hread⟩
    exact takes_valueWith hspace hread

/-- A value that is a number is read as the number is. -/
theorem ok_number_iff {s u : Bytes} {read : Reader Number} {e : Except Fault (Taken Json u)}
    (herror : ∀ f, read s = .error f → e = .error f)
    (hok : ∀ x, read s = .ok x → ∃ hlt, e = .ok ⟨.number x.value, x.rest, hlt⟩) :
    (∃ hlt, e = .ok ⟨v, rest, hlt⟩) ↔ ∃ x, v = .number x ∧ Takes read s x rest := by
  constructor
  · rintro ⟨hlt, hread⟩
    cases hx : read s with
    | error f =>
      rw [herror f hx] at hread
      cases hread
    | ok x =>
      obtain ⟨hlt', he⟩ := hok x hx
      rw [he] at hread
      cases hread
      exact ⟨x.value, rfl, x.shorter, hx⟩
  · rintro ⟨x, rfl, hlt, hx⟩
    exact hok _ hx

theorem valueFrom_minus_iff {nested : Option (Reader Json)} :
    (∃ hlt, valueFrom nested 0x2D t = .ok ⟨v, rest, hlt⟩) ↔
      ∃ x, v = .number x ∧ Takes (Numeric.read true) t x rest := by
  have hminus : valueFrom nested 0x2D t = Taken.behind .number 0x2D (Numeric.read true t) :=
    valueFrom_eq_behind nested 0x2D t
  rw [hminus]
  exact ok_number_iff (fun f hf => by rw [hf]; rfl)
    fun x hx => ⟨Nat.lt_succ_of_lt x.shorter, by rw [hx]; rfl⟩

theorem valueFrom_digit_iff {nested : Option (Reader Json)} (hb : Numeric.isDigit b = true) :
    (∃ hlt, valueFrom nested b t = .ok ⟨v, rest, hlt⟩) ↔
      ∃ x, v = .number x ∧ Takes (Numeric.read false) (b :: t) x rest := by
  have hne {c : UInt8} (hc : Numeric.isDigit c = false) : b ≠ c := Numeric.ne_of_isDigit hb hc
  rw [valueFrom_eq_behind, if_neg (hne rfl), if_neg (hne rfl), if_neg (hne rfl), if_neg (hne rfl),
    if_pos hb]
  exact ok_number_iff (fun f hf => by rw [hf]) fun x hx => ⟨x.shorter, by rw [hx]⟩

/-- An integer literal is read as the number behind its minus, if it has one. -/
theorem takes_value_iff {digits : List Char} {n : ℕ} (h : Decimal digits n) (negative : Bool)
    (depth : ℕ) :
    Takes (value depth)
        (Utf8.encode (String.ofList ((if negative then ['-'] else []) ++ digits)) ++ rest) v rest ↔
      ∃ x, v = .number x ∧
        Takes (Numeric.read negative) (Utf8.encode (String.ofList digits) ++ rest) x rest := by
  have hvalue : ∃ nested, value depth = valueWith nested := by
    cases depth <;> exact ⟨_, rfl⟩
  obtain ⟨nested, hvalue⟩ := hvalue
  rw [hvalue]
  cases negative with
  | true =>
    have hminus : Utf8.encode (String.ofList (['-'] ++ digits)) =
        0x2D :: Utf8.encode (String.ofList digits) := by
      rw [Utf8.encode_ofList, Utf8.encode_ofList, List.flatMap_append]
      rfl
    rw [if_pos rfl, hminus, List.cons_append, takes_valueWith_iff rfl, valueFrom_minus_iff]
  | false =>
    rw [if_neg (by decide), List.nil_append]
    cases hbytes : Utf8.encode (String.ofList digits) with
    | nil =>
      rw [Numeric.encode_digits h, List.map_eq_nil_iff] at hbytes
      exact absurd hbytes h.ne_nil
    | cons b t =>
      have hb : Numeric.isDigit b = true :=
        Numeric.isDigit_of_mem_encode h (by rw [hbytes]; exact List.mem_cons_self)
      have hspace : isSpace b = false := by
        have hne (c : UInt8) (hc : Numeric.isDigit c = false) : decide (b = c) = false :=
          decide_eq_false (Numeric.ne_of_isDigit hb hc)
        rw [isSpace, hne 0x20 rfl, hne 0x09 rfl, hne 0x0A rfl, hne 0x0D rfl]
        rfl
      rw [List.cons_append, takes_valueWith_iff hspace, valueFrom_digit_iff hb]

/-- However long an integer literal is: if it is accepted, it is read as its number. -/
theorem ofInteger_of_takes {depth : ℕ} (hl : IntegerLiteral literal z)
    (h : Takes (value depth) (literal ++ rest) v rest) : ∃ x, v = .number x ∧ OfInteger z x := by
  obtain ⟨negative, hdigits, hzero⟩ := hl
  obtain ⟨x, rfl, hread⟩ := (takes_value_iff hdigits negative depth).1 h
  exact ⟨x, rfl, Numeric.ofInteger_of_read hdigits hzero hread⟩

/-- An integer that fits 64 bits, unsigned or with its sign, is accepted. -/
theorem takes_integer (hl : IntegerLiteral literal z) (hz : -2 ^ 63 ≤ z ∧ z < 2 ^ 64)
    (hends : Numeric.EndsNumber rest) (depth : ℕ) :
    ∃ x, Takes (value depth) (literal ++ rest) (.number x) rest ∧ OfInteger z x := by
  obtain @⟨negative, _, n, hdigits, hzero⟩ := hl
  have hn : n < 2 ^ 64 := by split at hz <;> omega
  have hneg : negative = true → n ≤ 2 ^ 63 := by
    rintro rfl
    rw [if_pos rfl] at hz
    omega
  obtain ⟨x, hx⟩ := Numeric.exists_value hdigits negative hn hneg rest
  have hread := Numeric.takes_read (Numeric.scan_of_ends hdigits hzero hends) hx
  exact ⟨x, (takes_value_iff hdigits negative depth).2 ⟨x, rfl, hread⟩,
    Numeric.ofInteger_of_read hdigits hzero hread⟩

end Values

end EventRelay.Json
