import EventRelay.Proofs.Relp.Stream
import EventRelay.Proofs.Text.Numeral
import Mathlib.Data.List.TakeWhile

/-!
# What the reader of frames accepts

On the wire a frame is its transaction number, its command and the length of its data with blanks
between them, then a blank and the data if there are any, then a newline (`Documented`). The reader
accepts a little more, and `read_eq_ok_iff` says what: a newline may stand for each of the two
blanks between the fields of the header. Apart from that it accepts the documented form only, with
newlines in front, numbers with a plus and leading zeros, and a blank in front of no data.

So a header that is cut short by a newline goes on with what stands behind it
(`cutHeader_merges`).
-/

namespace EventRelay.Relp

open Text

/-- A header field that writes a number: decimal digits, a plus in front allowed. -/
def Denotes (field : Bytes) (n : Nat) : Prop :=
  IsField field ∧ ∃ digits, Numeral.Decimal digits n ∧
    (field = Utf8.encode (String.ofList digits) ∨
      field = Utf8.encode (String.ofList ('+' :: digits)))

namespace Frame

/-- A frame on the wire, whose number and command end with the given bytes. -/
def Spelled (afterTxnr afterCommand : UInt8) (f : Frame) (bytes : Bytes) : Prop :=
  ∃ (n : Nat) (txnr length ending : Bytes),
    bytes = List.replicate n newline ++ (txnr ++ afterTxnr :: (Utf8.encode f.command ++
      afterCommand :: (length ++ ending))) ∧
    Denotes txnr f.txnr ∧ f.txnr < Numeral.wordSize 32 ∧
    IsField (Utf8.encode f.command) ∧
    Denotes length f.data.length ∧ f.data.length ≤ maxData ∧
    (ending = blank :: (f.data ++ [newline]) ∨ f.data = [] ∧ ending = [newline])

/-- A frame on the wire as it is documented. -/
def Documented (f : Frame) (bytes : Bytes) : Prop := Spelled blank blank f bytes

/-! ## Fields -/

theorem number?_eq_some_iff {bound n : Nat} {field : Bytes} (h : IsField field) :
    number? bound field = some n ↔ Denotes field n ∧ n < bound := by
  have hchars : ∀ {s : String} {l : List Char}, s.toList = l ↔ s = String.ofList l := by
    intro s l
    constructor
    · rintro rfl
      exact String.ofList_toList.symm
    · rintro rfl
      exact String.toList_ofList
  simp only [number?, Option.bind_eq_some_iff, Utf8.decode?_eq_some_iff, Numeral.below?,
    Option.filter_eq_some_iff, Numeral.unsigned?_eq_some_iff, decide_eq_true_iff, hchars, Denotes]
  constructor
  · rintro ⟨s, rfl, ⟨digits, hdecimal, rfl | rfl⟩, hlt⟩
    · exact ⟨⟨h, digits, hdecimal, .inl rfl⟩, hlt⟩
    · exact ⟨⟨h, digits, hdecimal, .inr rfl⟩, hlt⟩
  · rintro ⟨⟨-, digits, hdecimal, rfl | rfl⟩, hlt⟩
    · exact ⟨_, rfl, ⟨digits, hdecimal, .inl rfl⟩, hlt⟩
    · exact ⟨_, rfl, ⟨digits, hdecimal, .inr rfl⟩, hlt⟩

section Accepted

variable {e : Ending} {s : Bytes}

theorem readField_accepted {field : Bytes} {x : Bytes × UInt8} (hroom : field.length ≤ maxField)
    (h : (readField e field s).1 = .ok x) :
    ∃ more, x.1 = field ++ more ∧ s = more ++ x.2 :: (readField e field s).2 ∧
      (∀ b ∈ more, b ≠ blank ∧ b ≠ newline) ∧ x.1 ≠ [] ∧ x.1.length ≤ maxField ∧
      (x.2 = blank ∨ x.2 = newline) := by
  fun_induction readField e field s with
  | case1 => cases h
  | case2 => cases h
  | case3 field b rest hend hne =>
    cases h
    refine ⟨[], (List.append_nil _).symm, rfl, nofun, ?_, hroom, hend⟩
    simpa using hne
  | case4 => cases h
  | case5 field b rest hplain hshort ih =>
    rw [not_or] at hplain
    have hroom' : (field ++ [b]).length ≤ maxField := by
      simpa using Nat.succ_le_of_lt (Nat.lt_of_not_le hshort)
    obtain ⟨more, hx, hs, hmore, hrest⟩ := ih hroom' h
    refine ⟨b :: more, ?_, ?_, List.forall_mem_cons.2 ⟨hplain, hmore⟩, hrest⟩
    · rw [hx, List.append_assoc]
      rfl
    · exact congrArg (b :: ·) hs

theorem isField_of_readField {x : Bytes × UInt8} (h : (readField e [] s).1 = .ok x) :
    s = x.1 ++ x.2 :: (readField e [] s).2 ∧ IsField x.1 ∧ (x.2 = blank ∨ x.2 = newline) := by
  obtain ⟨more, hx, hs, hplain, hne, hlength, hend⟩ := readField_accepted (Nat.zero_le _) h
  rw [List.nil_append] at hx
  exact ⟨hx ▸ hs, ⟨hne, hlength, hx ▸ hplain⟩, hend⟩

theorem isField_of_readFirst {x : Bytes × UInt8} (h : (readFirst e s).1 = .ok x) :
    ∃ n, s = List.replicate n newline ++ (x.1 ++ x.2 :: (readFirst e s).2) ∧ IsField x.1 ∧
      (x.2 = blank ∨ x.2 = newline) := by
  have hskipped : s.takeWhile (· = newline) =
      List.replicate (s.takeWhile (· = newline)).length newline := by
    apply List.eq_replicate_of_mem
    intro b hb
    simpa using List.mem_takeWhile_imp hb
  refine ⟨(s.takeWhile (· = newline)).length, ?_⟩
  rw [← hskipped]
  unfold readFirst at h ⊢
  split at h
  · cases h
  · next b rest hs =>
    obtain ⟨hfield, hrest⟩ := isField_of_readField h
    refine ⟨?_, hrest⟩
    rw [← hfield, ← hs, List.takeWhile_append_dropWhile]

theorem readTxnr_accepted {txnr : Nat} (h : (readTxnr e s).1 = .ok txnr) :
    ∃ n field terminator,
      s = List.replicate n newline ++ (field ++ terminator :: (readTxnr e s).2) ∧
      Denotes field txnr ∧ txnr < Numeral.wordSize 32 ∧
      (terminator = blank ∨ terminator = newline) := by
  obtain ⟨x, hx, hnumber, hrest⟩ := refine_ok h
  obtain ⟨n, hs, hfield, hend⟩ := isField_of_readFirst hx
  obtain ⟨hdenotes, hlt⟩ := (number?_eq_some_iff hfield).1 hnumber
  exact ⟨n, x.1, x.2, by rw [readTxnr, hrest]; exact hs, hdenotes, hlt, hend⟩

theorem readCommand_accepted {command : String} (h : (readCommand e s).1 = .ok command) :
    ∃ terminator, s = Utf8.encode command ++ terminator :: (readCommand e s).2 ∧
      IsField (Utf8.encode command) ∧ (terminator = blank ∨ terminator = newline) := by
  obtain ⟨x, hx, hcommand, hrest⟩ := refine_ok h
  obtain ⟨hs, hfield, hend⟩ := isField_of_readField hx
  rw [Utf8.decode?_eq_some_iff] at hcommand
  rw [hcommand] at hs hfield
  exact ⟨x.2, by rw [readCommand, hrest]; exact hs, hfield, hend⟩

theorem readLength_accepted {length : Nat} {terminator : UInt8}
    (h : (readLength e s).1 = .ok (length, terminator)) :
    ∃ field, s = field ++ terminator :: (readLength e s).2 ∧ Denotes field length ∧
      (terminator = blank ∨ terminator = newline) := by
  obtain ⟨x, hx, hnumber, hrest⟩ := refine_ok h
  obtain ⟨hs, hfield, hend⟩ := isField_of_readField hx
  obtain ⟨n, hn, heq⟩ := Option.map_eq_some_iff.1 hnumber
  cases heq
  obtain ⟨hdenotes, -⟩ := (number?_eq_some_iff hfield).1 hn
  exact ⟨x.1, by rw [readLength, hrest]; exact hs, hdenotes, hend⟩

theorem readData_accepted {length : Nat} {data : Bytes} (h : (readData e length s).1 = .ok data) :
    s = data ++ newline :: (readData e length s).2 ∧ data.length = length := by
  unfold readData at h ⊢
  split at h
  · cases h
  · next b rest hs =>
    split at h
    · next hb =>
      cases h
      rw [if_pos hb]
      have hlt : length < s.length := by
        have hlength := congrArg List.length hs
        rw [List.length_drop, List.length_cons] at hlength
        omega
      refine ⟨?_, List.length_take_of_le (Nat.le_of_lt hlt)⟩
      rw [← hb, ← hs, List.take_append_drop]
    · cases h

theorem readBody_accepted {length : Nat} {terminator : UInt8} {data : Bytes}
    (hend : terminator = blank ∨ terminator = newline)
    (h : (readBody e length terminator s).1 = .ok data) :
    ∃ ending, terminator :: s = ending ++ (readBody e length terminator s).2 ∧
      data.length = length ∧ length ≤ maxData ∧
      (ending = blank :: (data ++ [newline]) ∨ data = [] ∧ ending = [newline]) := by
  unfold readBody at h ⊢
  split at h
  · cases h
  · next hroom =>
    rw [if_neg hroom]
    split at h
    · next hblank =>
      rw [if_pos hblank]
      obtain ⟨hs, hlength⟩ := readData_accepted h
      refine ⟨blank :: (data ++ [newline]), ?_, hlength, Nat.le_of_not_lt hroom, .inl rfl⟩
      rw [hblank, List.cons_append, List.append_assoc]
      exact congrArg (blank :: ·) hs
    · next hblank =>
      rw [if_neg hblank]
      split at h
      · cases h
      · next hnone =>
        cases h
        rw [if_neg hnone]
        refine ⟨[newline], ?_, (Nat.eq_zero_of_not_pos hnone).symm, Nat.le_of_not_lt hroom,
          .inr ⟨rfl, rfl⟩⟩
        rw [hend.resolve_left hblank]
        rfl

end Accepted

/-! ## Whole frames -/

theorem readLength_of_ending {data length ending : Bytes} (e : Ending) (rest : Bytes)
    (hlength : Denotes length data.length) (hroom : data.length ≤ maxData)
    (hending : ending = blank :: (data ++ [newline]) ∨ data = [] ∧ ending = [newline]) :
    ∃ terminator behind,
      readLength e (length ++ (ending ++ rest)) = (.ok (data.length, terminator), behind) ∧
      readBody e data.length terminator behind = (.ok data, rest) := by
  have hnumber : number? (Numeral.wordSize 64) length = some data.length :=
    (number?_eq_some_iff hlength.1).2 ⟨hlength, Nat.lt_of_le_of_lt hroom (by decide)⟩
  rcases hending with rfl | ⟨rfl, rfl⟩
  · rw [List.cons_append, List.append_assoc]
    refine ⟨_, _, readLength_of_number? hlength.1 hnumber (.inl rfl), ?_⟩
    rw [readBody, if_neg (Nat.not_lt_of_le hroom), if_pos rfl]
    exact readData_append data
  · exact ⟨_, _, readLength_of_number? hlength.1 hnumber (.inr rfl), rfl⟩

/-- The reader accepts the documented form of a frame, with a newline allowed for each of the blanks
between the fields of the header, and leaves what stands behind it. It accepts nothing else. -/
theorem read_eq_ok_iff (e : Ending) (s rest : Bytes) (f : Frame) :
    read e s = (.ok f, rest) ↔
      ∃ afterTxnr afterCommand bytes, (afterTxnr = blank ∨ afterTxnr = newline) ∧
        (afterCommand = blank ∨ afterCommand = newline) ∧
        Spelled afterTxnr afterCommand f bytes ∧ s = bytes ++ rest := by
  constructor
  · intro h
    obtain ⟨hok, hrest⟩ := Prod.ext_iff.1 h
    simp only [read] at hok hrest
    obtain ⟨txnr, htxnr, hok, heq₁⟩ := andThen_ok hok
    obtain ⟨command, hcommand, hok, heq₂⟩ := andThen_ok hok
    obtain ⟨⟨length, terminator⟩, hlength, hok, heq₃⟩ := andThen_ok hok
    obtain ⟨data, hdata, hok, heq₄⟩ := andThen_ok hok
    cases hok
    rw [heq₁, heq₂, heq₃, heq₄] at hrest
    obtain ⟨n, number, afterTxnr, hs₁, hnumber, hlt, hfirst⟩ := readTxnr_accepted htxnr
    obtain ⟨afterCommand, hs₂, hfield, hsecond⟩ := readCommand_accepted hcommand
    obtain ⟨size, hs₃, hsize, hthird⟩ := readLength_accepted hlength
    obtain ⟨ending, hs₄, rfl, hroom, hending⟩ := readBody_accepted hthird hdata
    refine ⟨afterTxnr, afterCommand, _, hfirst, hsecond,
      ⟨n, number, size, ending, rfl, hnumber, hlt, hfield, hsize, hroom, hending⟩, ?_⟩
    rw [hs₁, hs₂, hs₃, hs₄, ← hrest]
    simp only [List.append_assoc, List.cons_append]
  · rintro ⟨afterTxnr, afterCommand, bytes, hfirst, hsecond,
      ⟨n, txnr, length, ending, rfl, htxnr, hlt, hcommand, hlength, hroom, hending⟩, rfl⟩
    have hnumber := (number?_eq_some_iff htxnr.1).2 ⟨htxnr, hlt⟩
    simp only [List.append_assoc, List.cons_append, read]
    rw [readTxnr_of_number? htxnr.1 hnumber hfirst]
    simp only [Reading.andThen]
    rw [readCommand_append hcommand hsecond]
    obtain ⟨terminator, behind, hread, hbody⟩ :=
      readLength_of_ending e rest hlength hroom hending
    simp only [hread, hbody]

/-- A header that breaks off after two fields, and a frame behind it. -/
def cutHeader : Bytes := Utf8.encode "1 rsp\n5 rsp 0\n"

/-- The two are read as one frame, so not every frame that is read is in its documented form. -/
theorem cutHeader_merges :
    read .closed cutHeader = (.ok ⟨1, "rsp", Utf8.encode "rsp 0"⟩, []) ∧
      ¬ ∀ (e : Ending) (s rest : Bytes) (f : Frame), read e s = (.ok f, rest) →
        ∃ bytes, Documented f bytes ∧ s = bytes ++ rest := by
  have hread : read .closed cutHeader = (.ok ⟨1, "rsp", Utf8.encode "rsp 0"⟩, []) := by
    decide +kernel
  refine ⟨hread, fun h => ?_⟩
  obtain ⟨bytes, ⟨n, txnr, length, ending, rfl, htxnr, -⟩, hbytes⟩ := h _ _ _ _ hread
  rw [List.append_assoc, List.append_assoc, List.cons_append] at hbytes
  have hfirst : readFirst .closed cutHeader =
      (.ok (Utf8.encode "1", blank), Utf8.encode "rsp" ++ newline :: Utf8.encode "5 rsp 0\n") := by
    decide +kernel
  -- what is left behind the first field shows that the second one ends with a newline
  rw [hbytes, readFirst_of_isField htxnr.1 (.inl rfl), Prod.mk.injEq, List.append_assoc] at hfirst
  have hsecond := List.append_cancel_left hfirst.2
  exact absurd (List.cons.inj hsecond).1 (by decide)

end Frame

end EventRelay.Relp
