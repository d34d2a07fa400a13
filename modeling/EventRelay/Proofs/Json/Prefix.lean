import EventRelay.Json.Reader

/-!
# Values at the front of longer inputs

What a reader takes off the front of its input it also takes off the front of every longer input,
and leaves what it left before with the addition behind it (`Delimited`). A number may go on where
the input ended, so for readers that take numbers this holds only if something was left (`Local`);
texts show by themselves where they end.
-/

namespace EventRelay.Json

/-- The reader takes the value off the front and leaves the rest. -/
def Takes {α : Type} (read : Reader α) (s : Bytes) (v : α) (rest : Bytes) : Prop :=
  ∃ h, read s = .ok ⟨v, rest, h⟩

/-- What a reader takes off the front it also takes off the front of longer inputs. -/
def Delimited {α : Type} (read : Reader α) : Prop :=
  ∀ ⦃s v rest⦄, Takes read s v rest → ∀ more, Takes read (s ++ more) v (rest ++ more)

/-- The same of a reader whose values may go on where the input ends. -/
def Local {α : Type} (read : Reader α) : Prop :=
  ∀ ⦃s v rest⦄, Takes read s v rest → rest ≠ [] → ∀ more, Takes read (s ++ more) v (rest ++ more)

theorem dropWhile_append_of_ne_nil {p : UInt8 → Bool} {s : Bytes} (h : s.dropWhile p ≠ [])
    (more : Bytes) : (s ++ more).dropWhile p = s.dropWhile p ++ more := by
  have hstop : ¬ (s.dropWhile p).isEmpty = true := by rwa [List.isEmpty_iff]
  rw [List.dropWhile_append, if_neg hstop]

/-! ## Texts -/

namespace Quoted

theorem delimited_codeUnit : Delimited codeUnit := by
  rintro s v rest ⟨h, hread⟩ more
  unfold codeUnit at hread
  split at hread
  · split at hread
    · next a b c d ha hb hc hd =>
      cases hread
      exact ⟨by simp; omega, by simp only [List.cons_append, codeUnit, ha, hb, hc, hd]⟩
    · cases hread
  · cases hread

theorem delimited_secondHalf (leading : Nat) : Delimited (secondHalf leading) := by
  rintro s v rest ⟨h, hread⟩ more
  unfold secondHalf at hread
  split at hread
  · cases hread
  · split at hread
    · cases hread
    · next hbackslash =>
      split at hread
      · cases hread
      · next b _ c u =>
        split at hread
        · cases hread
        · next hu =>
          split at hread
          · cases hread
          · next x hx =>
            split at hread
            · next htrailing =>
              simp only [Except.ok.injEq, Taken.mk.injEq] at hread
              obtain ⟨rfl, rfl⟩ := hread
              obtain ⟨hlt, hunit⟩ := delimited_codeUnit ⟨x.shorter, hx⟩ more
              refine ⟨by simp at hlt ⊢; omega, ?_⟩
              simp only [List.cons_append, secondHalf, if_neg hbackslash, if_neg hu, hunit,
                if_pos htrailing]
            · cases hread

theorem delimited_unicode : Delimited unicode := by
  rintro s v rest ⟨h, hread⟩ more
  unfold unicode at hread
  split at hread
  · cases hread
  · next x hx =>
    obtain ⟨hlt, hunit⟩ := delimited_codeUnit ⟨x.shorter, hx⟩ more
    split at hread
    · cases hread
    · next htrailing =>
      split at hread
      · next hleading =>
        split at hread
        · cases hread
        · next y hy =>
          cases hread
          obtain ⟨hlt', hsecond⟩ := delimited_secondHalf x.value ⟨y.shorter, hy⟩ more
          refine ⟨Nat.lt_trans hlt' hlt, ?_⟩
          simp only [unicode, hunit, if_neg htrailing, if_pos hleading, hsecond]
          rfl
      · next hleading =>
        cases hread
        refine ⟨hlt, ?_⟩
        simp only [unicode, hunit, if_neg htrailing, if_neg hleading]

theorem delimited_escape : Delimited escape := by
  rintro s v rest ⟨h, hread⟩ more
  unfold escape at hread
  split at hread
  · cases hread
  · next b t =>
    split at hread
    · next hb =>
      split at hread
      · cases hread
      · next x hx =>
        cases hread
        obtain ⟨hlt, hunicode⟩ := delimited_unicode ⟨x.shorter, hx⟩ more
        refine ⟨Nat.lt_succ_of_lt hlt, ?_⟩
        simp only [List.cons_append, escape, if_pos hb, hunicode]
        rfl
    · next hb =>
      split at hread
      · next c hc =>
        cases hread
        exact ⟨by simp, by simp only [List.cons_append, escape, if_neg hb, hc]⟩
      · cases hread

theorem delimited_content : Delimited content := by
  rintro s v rest ⟨h, hread⟩ more
  fun_induction content s generalizing v rest with
  | case1 => cases hread
  | case2 t =>
    cases hread
    exact ⟨by simp, by simp [content]⟩
  | case3 => cases hread
  | case4 => cases hread
  | case5 t y hy z hz hquote _ ih =>
    cases hread
    obtain ⟨hlt, hescape⟩ := delimited_escape ⟨y.shorter, hy⟩ more
    obtain ⟨hlt', hcontent⟩ := ih z.shorter hz
    refine ⟨Nat.lt_succ_of_lt (Nat.lt_trans hlt' hlt), ?_⟩
    show content (0x5C :: (t ++ more)) = _
    rw [content, if_neg hquote, if_pos rfl]
    simp only [hescape, hcontent]
  | case6 => cases hread
  | case7 => cases hread
  | case8 b t hquote hescape hcontrol y hy ih =>
    cases hread
    obtain ⟨hlt, hcontent⟩ := ih y.shorter hy
    refine ⟨Nat.lt_succ_of_lt hlt, ?_⟩
    show content (b :: (t ++ more)) = _
    rw [content, if_neg hquote, if_neg hescape, if_neg hcontrol]
    simp only [hcontent]

theorem delimited_read : Delimited read := by
  rintro s v rest ⟨h, hread⟩ more
  unfold read at hread
  split at hread
  · cases hread
  · next x hx =>
    split at hread
    · next t ht =>
      cases hread
      obtain ⟨hlt, hcontent⟩ := delimited_content ⟨x.shorter, hx⟩ more
      exact ⟨hlt, by simp only [read, hcontent, ht]⟩
    · cases hread

end Quoted

/-! ## Numbers -/

namespace Numeric

theorem digits_append {s : Bytes} (h : afterDigits s ≠ []) (more : Bytes) :
    digits (s ++ more) = digits s := by
  have hstop : ¬ (s.takeWhile isDigit).length = s.length := by
    intro hall
    have hs := List.takeWhile_append_dropWhile (p := isDigit) (l := s)
    have hlength := congrArg List.length hs
    rw [List.length_append, hall] at hlength
    exact h (List.length_eq_zero_iff.1 (by unfold afterDigits; omega))
  rw [digits, List.takeWhile_append, if_neg hstop, digits]

theorem afterDigits_append {s : Bytes} (h : afterDigits s ≠ []) (more : Bytes) :
    afterDigits (s ++ more) = afterDigits s ++ more :=
  dropWhile_append_of_ne_nil h more

theorem exponentSign_append {s : Bytes} (h : s ≠ []) (more : Bytes) :
    exponentSign (s ++ more) = ((exponentSign s).1, (exponentSign s).2 ++ more) := by
  cases s with
  | nil => exact absurd rfl h
  | cons b t =>
    simp only [List.cons_append, exponentSign]
    split
    · rfl
    · split <;> rfl

/-- The same literal with more behind it. -/
def Scan.extend (x : Scan) (more : Bytes) : Scan :=
  { x with exponent := x.exponent.map fun p => (p.1, p.2 ++ more), rest := x.rest ++ more }

theorem scanExponent_append {whole : List Nat} {fraction : Option (List Nat)} {s : Bytes} {x : Scan}
    (h : scanExponent whole fraction s = .ok x) (hrest : x.rest ≠ []) (more : Bytes) :
    scanExponent whole fraction (s ++ more) = .ok (x.extend more) := by
  have hs : s ≠ [] := by rintro rfl; cases h
  simp only [scanExponent] at h
  split at h
  · cases h
  · next b t hsign =>
    split at h
    · next hdigit =>
      cases h
      have hdigits := digits_append hrest more
      have hafter := afterDigits_append hrest more
      rw [List.cons_append] at hdigits hafter
      simp only [scanExponent, exponentSign_append hs, hsign, List.cons_append, if_pos hdigit,
        hdigits, hafter]
      rfl
    · cases h

theorem scanTail_append {whole : List Nat} {s : Bytes} {x : Scan} (h : scanTail whole s = .ok x)
    (hrest : x.rest ≠ []) (more : Bytes) : scanTail whole (s ++ more) = .ok (x.extend more) := by
  unfold scanTail at h
  split at h
  · next t =>
    split at h
    · cases h
    · next b u =>
      split at h
      · next hdigit =>
        split at h
        · next c v hafter =>
          have hstop : afterDigits (b :: u) ≠ [] := by rw [hafter]; exact List.cons_ne_nil c v
          have hdigits := digits_append hstop more
          have hlater := afterDigits_append hstop more
          rw [List.cons_append] at hdigits hlater
          rw [hafter] at hlater
          split at h
          · next hmark =>
            have hexponent := scanExponent_append h hrest more
            simp only [List.cons_append, scanTail, if_pos hdigit, hdigits, hlater, if_pos hmark,
              hexponent]
          · next hmark =>
            cases h
            simp only [List.cons_append, scanTail, if_pos hdigit, hdigits, hlater, if_neg hmark]
            rfl
        · cases h
          exact absurd rfl hrest
      · cases h
  · next b t hpoint =>
    split at h
    · next hmark =>
      have hexponent := scanExponent_append h hrest more
      simp only [List.cons_append, scanTail, if_pos hmark, hexponent]
    · next hmark =>
      cases h
      simp only [List.cons_append, scanTail, if_neg hmark]
      rfl
  · cases h
    exact absurd rfl hrest

theorem scan_append {s : Bytes} {x : Scan} (h : scan s = .ok x) (hrest : x.rest ≠ [])
    (more : Bytes) : scan (s ++ more) = .ok (x.extend more) := by
  unfold scan at h
  split at h
  · cases h
  · next b t =>
    split at h
    · next hzero =>
      split at h
      · next c u =>
        split at h
        · cases h
        · next hdigit =>
          have htail := scanTail_append h hrest more
          simpa only [List.cons_append, scan, if_pos hzero, if_neg hdigit] using htail
      · cases h
        exact absurd rfl hrest
    · next hzero =>
      split at h
      · next hdigit =>
        have hstop : afterDigits (b :: t) ≠ [] := by
          intro hnone
          rw [hnone] at h
          cases h
          exact hrest rfl
        have hdigits := digits_append hstop more
        have hlater := afterDigits_append hstop more
        rw [List.cons_append] at hdigits hlater
        have htail := scanTail_append h hrest more
        simp only [List.cons_append, scan, if_neg hzero, if_pos hdigit, hdigits, hlater, htail]
      · cases h

theorem scaled_rest {negative : Bool} {m : Nat} {e : Int} {rest : Bytes} {n : Number}
    (h : scaled negative m e rest = .ok n) (rest' : Bytes) : scaled negative m e rest' = .ok n := by
  unfold scaled at h ⊢
  split at h
  · exact h
  · cases h

theorem Scan.value_extend {negative : Bool} {x : Scan} {n : Number} (h : x.value negative = .ok n)
    (more : Bytes) : (x.extend more).value negative = .ok n := by
  have hparts : (x.extend more).parts = x.parts := rfl
  unfold Scan.value at h ⊢
  rw [hparts]
  cases he : x.exponent with
  | none =>
    simp only [he, Scan.extend, Option.map_none] at h ⊢
    split
    · next hinteger =>
      rw [if_pos hinteger] at h
      split
      · next hpositive => rwa [if_pos hpositive] at h
      · next hpositive =>
        rw [if_neg hpositive] at h
        split
        · next hreal =>
          rw [if_pos hreal] at h
          exact scaled_rest h _
        · next hreal => rwa [if_neg hreal] at h
    · next hinteger =>
      rw [if_neg hinteger] at h
      exact scaled_rest h _
  | some p =>
    simp only [he, Scan.extend, Option.map_some] at h ⊢
    cases hm : p.1.magnitude with
    | inl k =>
      simp only [hm] at h ⊢
      exact scaled_rest h _
    | inr taken =>
      simp only [hm] at h ⊢
      split
      · next hlarge =>
        rw [if_pos hlarge] at h
        cases h
      · next hlarge => rwa [if_neg hlarge] at h

theorem takes_read {negative : Bool} {s : Bytes} {x : Scan} {n : Number} (hscan : scan s = .ok x)
    (hvalue : x.value negative = .ok n) : Takes (read negative) s n x.rest := by
  refine ⟨length_scan hscan, ?_⟩
  unfold read
  split
  · next hfault =>
    rw [hscan] at hfault
    cases hfault
  · next y hy =>
    rw [hscan] at hy
    cases hy
    simp only [hvalue]

theorem local_read (negative : Bool) : Local (read negative) := by
  rintro s v rest ⟨h, hread⟩ hrest more
  unfold read at hread
  split at hread
  · cases hread
  · next x hx =>
    split at hread
    · cases hread
    · next n hn =>
      cases hread
      exact takes_read (scan_append hx hrest more) (Scan.value_extend hn more)

end Numeric

end EventRelay.Json
