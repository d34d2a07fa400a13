import EventRelay.Proofs.Relp.Commit
import EventRelay.Proofs.Text.Utf8

/-!
# Streams of frames

What is written as frames is read as the same frames (`read_encode`), whatever the data hold and
however many newlines stand between them, because the length in the header says where the data end.
A frame that is cut short is never taken for another one nor for the end of the stream between two
frames (`read_cut`). `readAll_stream` says so of whole streams.

Everything rests on two facts about a header field: with its terminator behind it, it is read whole
(`readField_append`), and without one the reader asks for more (`readField_cut`).
-/

namespace EventRelay.Relp

open Text

/-- A header field: neither empty nor too long, and without the bytes that end a field. -/
structure IsField (field : Bytes) : Prop where
  ne_nil : field ≠ []
  length_le : field.length ≤ maxField
  plain : ∀ b ∈ field, b ≠ blank ∧ b ≠ newline

/-- A frame that can be written: a transaction number of 32 bits, a command of a few bytes without
blanks and newlines, and not too many data. -/
structure Frame.WellFormed (f : Frame) : Prop where
  txnr_lt : f.txnr < Numeral.wordSize 32
  command : IsField (Utf8.encode f.command)
  data_le : f.data.length ≤ maxData

/-! ## Numbers in a header -/

theorem isField_repr {n : Nat} (h : n < Numeral.wordSize 64) : IsField (Utf8.encode n.repr) := by
  refine ⟨?_, ?_, ?_⟩
  · rw [Utf8.encode_repr]
    simp
  · rw [Utf8.encode_repr, List.length_map]
    exact (Nat.length_toDigits_le_iff (by decide) (by decide)).2 (Nat.lt_trans h (by decide))
  · intro b hb
    have hdigit := Utf8.toNat_of_mem_encode_repr hb
    constructor
    · rintro rfl
      exact absurd hdigit.1 (by decide)
    · rintro rfl
      exact absurd hdigit.1 (by decide)

theorem number?_encode_repr {bound n : Nat} (h : n < bound) :
    Frame.number? bound (Utf8.encode n.repr) = some n := by
  rw [Frame.number?, Utf8.decode?_encode, Option.bind_some, Numeral.below?, Numeral.unsigned?_repr]
  simp [h]

/-! ## One field -/

namespace Frame

theorem readField_cons {e : Ending} {field : Bytes} {b : UInt8} {s : Bytes}
    (hb : b ≠ blank ∧ b ≠ newline) (hroom : field.length < maxField) :
    readField e field (b :: s) = readField e (field ++ [b]) s := by
  rw [readField, if_neg (fun h => h.elim hb.1 hb.2), if_neg (Nat.not_le_of_lt hroom)]

theorem readField_append {e : Ending} {field more rest : Bytes} {terminator : UInt8}
    (hplain : ∀ b ∈ more, b ≠ blank ∧ b ≠ newline) (hlength : field.length + more.length ≤ maxField)
    (hne : field ++ more ≠ []) (hterminator : terminator = blank ∨ terminator = newline) :
    readField e field (more ++ terminator :: rest) = (.ok (field ++ more, terminator), rest) := by
  induction more generalizing field with
  | nil =>
    rw [List.append_nil] at hne ⊢
    rw [List.nil_append, readField, if_pos hterminator, if_neg (by simpa using hne)]
  | cons b more ih =>
    rw [List.length_cons] at hlength
    rw [List.cons_append, readField_cons (hplain b List.mem_cons_self) (by omega), ih]
    · rw [List.append_assoc, List.singleton_append]
    · exact fun b' hb' => hplain b' (List.mem_cons_of_mem _ hb')
    · rw [List.length_append, List.length_singleton]
      omega
    · simp

theorem readField_cut {e : Ending} {field more : Bytes}
    (hplain : ∀ b ∈ more, b ≠ blank ∧ b ≠ newline)
    (hlength : field.length + more.length ≤ maxField) :
    readField e field more = (.error (e.fault (.violation .headerCut)), []) := by
  induction more generalizing field with
  | nil => rw [readField]
  | cons b more ih =>
    rw [List.length_cons] at hlength
    rw [readField_cons (hplain b List.mem_cons_self) (by omega), ih]
    · exact fun b' hb' => hplain b' (List.mem_cons_of_mem _ hb')
    · rw [List.length_append, List.length_singleton]
      omega

theorem readFirst_newlines (e : Ending) (n : Nat) (s : Bytes) :
    readFirst e (List.replicate n newline ++ s) = readFirst e s := by
  have hskip : (List.replicate n newline ++ s).dropWhile (· = newline) =
      s.dropWhile (· = newline) := by
    induction n with
    | zero => rfl
    | succ n ih =>
      rw [List.replicate_succ, List.cons_append, List.dropWhile_cons_of_pos (by simp), ih]
  rw [readFirst, readFirst, hskip]

theorem readFirst_cons {e : Ending} {b : UInt8} {s : Bytes} (h : b ≠ newline) :
    readFirst e (b :: s) = readField e [] (b :: s) := by
  rw [readFirst, List.dropWhile_cons_of_neg (by simpa using h)]

/-! ## Whole frames -/

section Whole

variable {e : Ending} {field rest : Bytes}

theorem readField_of_isField {terminator : UInt8} (h : IsField field)
    (hterminator : terminator = blank ∨ terminator = newline) :
    readField e [] (field ++ terminator :: rest) = (.ok (field, terminator), rest) := by
  have hlength : ([] : Bytes).length + field.length ≤ maxField := by
    simpa using h.length_le
  simpa using readField_append h.plain hlength (by simpa using h.ne_nil) hterminator

theorem readFirst_of_isField {terminator : UInt8} (h : IsField field)
    (hterminator : terminator = blank ∨ terminator = newline) (n : Nat) :
    readFirst e (List.replicate n newline ++ (field ++ terminator :: rest)) =
      (.ok (field, terminator), rest) := by
  rw [readFirst_newlines]
  cases hfield : field with
  | nil => exact absurd hfield h.ne_nil
  | cons b more =>
    have hb : b ≠ newline := (h.plain b (by simp [hfield])).2
    rw [List.cons_append, readFirst_cons hb, ← List.cons_append, ← hfield,
      readField_of_isField h hterminator]

theorem readTxnr_of_number? {txnr : Nat} {terminator : UInt8} (h : IsField field)
    (hnumber : number? (Numeral.wordSize 32) field = some txnr)
    (hterminator : terminator = blank ∨ terminator = newline) (n : Nat) :
    readTxnr e (List.replicate n newline ++ (field ++ terminator :: rest)) = (.ok txnr, rest) := by
  simp only [readTxnr, Reading.refine, readFirst_of_isField h hterminator, Reading.andThen, hnumber]

theorem readTxnr_append {txnr : Nat} (h : txnr < Numeral.wordSize 32) (n : Nat) :
    readTxnr e (List.replicate n newline ++ (Utf8.encode txnr.repr ++ blank :: rest)) =
      (.ok txnr, rest) :=
  readTxnr_of_number? (isField_repr (Nat.lt_trans h (by decide))) (number?_encode_repr h)
    (.inl rfl) n

theorem readCommand_append {command : String} {terminator : UInt8}
    (h : IsField (Utf8.encode command)) (hterminator : terminator = blank ∨ terminator = newline) :
    readCommand e (Utf8.encode command ++ terminator :: rest) = (.ok command, rest) := by
  simp only [readCommand, Reading.refine, readField_of_isField h hterminator, Reading.andThen,
    Utf8.decode?_encode]

theorem readLength_of_number? {length : Nat} {terminator : UInt8} (h : IsField field)
    (hnumber : number? (Numeral.wordSize 64) field = some length)
    (hterminator : terminator = blank ∨ terminator = newline) :
    readLength e (field ++ terminator :: rest) = (.ok (length, terminator), rest) := by
  simp only [readLength, Reading.refine, readField_of_isField h hterminator, Reading.andThen,
    hnumber, Option.map_some]

theorem readLength_append {length : Nat} {terminator : UInt8} (h : length ≤ maxData)
    (hterminator : terminator = blank ∨ terminator = newline) :
    readLength e (Utf8.encode length.repr ++ terminator :: rest) =
      (.ok (length, terminator), rest) := by
  have hlt : length < Numeral.wordSize 64 := Nat.lt_of_le_of_lt h (by decide)
  exact readLength_of_number? (isField_repr hlt) (number?_encode_repr hlt) hterminator

theorem readData_append (data : Bytes) :
    readData e data.length (data ++ newline :: rest) = (.ok data, rest) := by
  rw [readData, List.drop_left]
  simp

end Whole

/-- What stands behind the length of the data: a newline, or a blank with the data and a newline. -/
theorem encode_append (f : Frame) (rest : Bytes) :
    f.encode ++ rest = Utf8.encode f.txnr.repr ++ blank :: (Utf8.encode f.command ++ blank ::
      (Utf8.encode f.data.length.repr ++ (f.body ++ newline :: rest))) := by
  simp [encode, header]

/-- Behind number and command it is the length and the data that decide. -/
theorem read_of_command {f : Frame} (h : f.WellFormed) (e : Ending) (n : Nat) (s : Bytes) :
    read e (List.replicate n newline ++ (Utf8.encode f.txnr.repr ++ blank ::
      (Utf8.encode f.command ++ blank :: s))) =
      Reading.andThen (readLength e s) fun length s =>
        Reading.andThen (readBody e length.1 length.2 s) fun data s =>
          (.ok ⟨f.txnr, f.command, data⟩, s) := by
  rw [read, readTxnr_append h.txnr_lt]
  simp only [Reading.andThen]
  rw [readCommand_append h.command (.inl rfl)]

/-- A frame is read as it was written, and what follows it is left unread. -/
theorem read_encode {f : Frame} (h : f.WellFormed) (e : Ending) (n : Nat) (rest : Bytes) :
    read e (List.replicate n newline ++ (f.encode ++ rest)) = (.ok f, rest) := by
  rw [encode_append, read_of_command h]
  obtain ⟨txnr, command, data⟩ := f
  have hdata : data.length ≤ maxData := h.data_le
  have hroom : ¬ maxData < data.length := Nat.not_lt_of_le hdata
  cases data with
  | nil =>
    have hbody : body ⟨txnr, command, []⟩ ++ newline :: rest = newline :: rest := rfl
    have hterminator : newline ≠ blank := by decide
    rw [hbody, readLength_append hdata (.inr rfl)]
    simp only [Reading.andThen, readBody, if_neg hterminator, List.length_nil, Nat.not_lt_zero,
      if_false]
  | cons b data =>
    have hbody : body ⟨txnr, command, b :: data⟩ ++ newline :: rest =
        blank :: (b :: data ++ newline :: rest) := rfl
    rw [hbody, readLength_append hdata (.inl rfl)]
    simp only [Reading.andThen, readBody, if_neg hroom, if_true, readData_append]

/-! ## Frames that are cut short -/

/-- What a prefix of two parts with something between them can be. -/
theorem prefix_append_cons {α : Type} {p l l' : List α} {b : α} (h : p <+: l ++ b :: l') :
    p <+: l ∨ ∃ q, p = l ++ b :: q ∧ q <+: l' := by
  induction l generalizing p with
  | nil =>
    rcases List.prefix_cons_iff.1 h with rfl | ⟨q, rfl, hq⟩
    · exact .inl (List.nil_prefix)
    · exact .inr ⟨q, rfl, hq⟩
  | cons a l ih =>
    rcases List.prefix_cons_iff.1 h with rfl | ⟨p, rfl, hp⟩
    · exact .inl (List.nil_prefix)
    · rcases ih hp with hl | ⟨q, rfl, hq⟩
      · exact .inl (List.cons_prefix_cons.2 ⟨rfl, hl⟩)
      · exact .inr ⟨q, rfl, hq⟩

section Cut

variable {e : Ending} {field cut : Bytes}

theorem readField_of_prefix (h : IsField field) (hcut : cut <+: field) :
    readField e [] cut = (.error (e.fault (.violation .headerCut)), []) := by
  have hplain : ∀ b ∈ cut, b ≠ blank ∧ b ≠ newline := fun b hb => h.plain b (hcut.subset hb)
  have hlength : ([] : Bytes).length + cut.length ≤ maxField := by
    have hle := hcut.length_le
    have hfield := h.length_le
    simp only [List.length_nil]
    omega
  exact readField_cut hplain hlength

theorem readFirst_of_prefix (h : IsField field) (hcut : cut <+: field) (hne : cut ≠ []) (n : Nat) :
    readFirst e (List.replicate n newline ++ cut) =
      (.error (e.fault (.violation .headerCut)), []) := by
  rw [readFirst_newlines]
  cases hc : cut with
  | nil => exact absurd hc hne
  | cons b more =>
    have hb : b ≠ newline := (h.plain b (hcut.subset (by simp [hc]))).2
    rw [readFirst_cons hb, ← hc, readField_of_prefix h hcut]

theorem readData_of_prefix {data : Bytes} (hcut : cut <+: data) :
    readData e data.length cut = (.error (e.fault .io), []) := by
  rw [readData, List.drop_eq_nil_of_le hcut.length_le]

end Cut

theorem andThen_of_error {α β : Type} {x : Reading α} {fault : Fault} (h : x.1 = .error fault)
    (f : α → Bytes → Reading β) : (Reading.andThen x f).1 = .error fault := by
  obtain ⟨x, rest⟩ := x
  cases h
  rfl

/-- Data that are cut short, or whose length is. -/
theorem readLength_cut {f : Frame} {cut : Bytes} (h : f.WellFormed)
    (hcut : cut <+: Utf8.encode f.data.length.repr ++ (f.body ++ [newline]))
    (hshort : cut ≠ Utf8.encode f.data.length.repr ++ (f.body ++ [newline])) (e : Ending) :
    ∃ atEnd, atEnd ≠ Fault.serverClose ∧
      ((readLength e cut).1 = .error (e.fault atEnd) ∨
        ∃ rest, readLength e cut = (.ok (f.data.length, blank), rest) ∧
          (readBody e f.data.length blank rest).1 = .error (e.fault atEnd)) := by
  have hlength : IsField (Utf8.encode f.data.length.repr) :=
    isField_repr (Nat.lt_of_le_of_lt h.data_le (by decide))
  have hroom : ¬ maxData < f.data.length := Nat.not_lt_of_le h.data_le
  have hinLength : cut <+: Utf8.encode f.data.length.repr →
      (readLength e cut).1 = .error (e.fault (.violation .headerCut)) := by
    intro hin
    rw [readLength, Reading.refine, readField_of_prefix hlength hin]
    rfl
  by_cases hdata : f.data = []
  · have hbody : f.body ++ [newline] = newline :: [] := by simp [body, hdata]
    rw [hbody] at hcut hshort
    rcases prefix_append_cons hcut with hin | ⟨rest, rfl, hrest⟩
    · exact ⟨.violation .headerCut, by simp, .inl (hinLength hin)⟩
    · -- nothing is missing
      rw [List.prefix_nil.1 hrest] at hshort
      exact absurd rfl hshort
  · have hbody : f.body ++ [newline] = blank :: (f.data ++ newline :: []) := by
      simp [body, hdata]
    rw [hbody] at hcut hshort
    rcases prefix_append_cons hcut with hin | ⟨rest, rfl, hrest⟩
    · exact ⟨.violation .headerCut, by simp, .inl (hinLength hin)⟩
    · refine ⟨.io, by simp, .inr ⟨rest, readLength_append h.data_le (.inl rfl), ?_⟩⟩
      rcases prefix_append_cons hrest with hin | ⟨rest', rfl, hrest'⟩
      · rw [readBody, if_neg hroom, if_pos rfl, readData_of_prefix hin]
      · rw [List.prefix_nil.1 hrest'] at hshort
        exact absurd rfl hshort

/-- A reader of a frame that is cut short asks for more, and does not take the end of the stream for
one between two frames. -/
theorem read_cut {f : Frame} {cut : Bytes} (h : f.WellFormed) (hcut : cut <+: f.encode)
    (hne : cut ≠ []) (hshort : cut ≠ f.encode) (e : Ending) (n : Nat) :
    ∃ atEnd, atEnd ≠ Fault.serverClose ∧
      (read e (List.replicate n newline ++ cut)).1 = .error (e.fault atEnd) := by
  have htxnr : IsField (Utf8.encode f.txnr.repr) :=
    isField_repr (Nat.lt_trans h.txnr_lt (by decide))
  have hencode := encode_append f []
  rw [List.append_nil] at hencode
  rw [hencode] at hcut hshort
  rcases prefix_append_cons hcut with hin | ⟨cut₁, rfl, hcut₁⟩
  · refine ⟨.violation .headerCut, by simp, ?_⟩
    rw [read]
    apply andThen_of_error
    rw [readTxnr, Reading.refine, readFirst_of_prefix htxnr hin hne]
    rfl
  rcases prefix_append_cons hcut₁ with hin | ⟨cut₂, rfl, hcut₂⟩
  · refine ⟨.violation .headerCut, by simp, ?_⟩
    rw [read, readTxnr_append h.txnr_lt]
    change (Reading.andThen (readCommand e cut₁) _).1 = _
    apply andThen_of_error
    rw [readCommand, Reading.refine, readField_of_prefix h.command hin]
    rfl
  have hshort₂ : cut₂ ≠ Utf8.encode f.data.length.repr ++ (f.body ++ [newline]) := by
    rintro rfl
    exact hshort rfl
  obtain ⟨atEnd, hatEnd, hread⟩ := readLength_cut h hcut₂ hshort₂ e
  refine ⟨atEnd, hatEnd, ?_⟩
  rw [read_of_command h]
  rcases hread with hread | ⟨rest, hread, hbody⟩
  · exact andThen_of_error hread _
  · rw [hread]
    exact andThen_of_error hbody _

/-! ## Streams -/

/-- Frames on the wire, each with so many newlines in front of it. -/
def stream (frames : List (Nat × Frame)) : Bytes :=
  frames.flatMap fun x => List.replicate x.1 newline ++ x.2.encode

theorem readAll_of_error {e : Ending} {s : Bytes} {fault : Fault}
    (h : (read e s).1 = .error fault) : readAll e s = ([], fault) := by
  rw [readAll]
  split
  · next h' => rw [h'] at h; cases h; rfl
  · next h' => rw [h'] at h; cases h

theorem readAll_stream_append {frames : List (Nat × Frame)} (h : ∀ x ∈ frames, x.2.WellFormed)
    (e : Ending) (rest : Bytes) :
    readAll e (stream frames ++ rest) =
      (frames.map Prod.snd ++ (readAll e rest).1, (readAll e rest).2) := by
  induction frames with
  | nil => rfl
  | cons x frames ih =>
    have hx : x.2.WellFormed := h x List.mem_cons_self
    have hframes : ∀ y ∈ frames, y.2.WellFormed := fun y hy => h y (List.mem_cons_of_mem _ hy)
    have hbytes : stream (x :: frames) ++ rest =
        List.replicate x.1 newline ++ (x.2.encode ++ (stream frames ++ rest)) := by
      simp only [stream, List.flatMap_cons, List.append_assoc]
    rw [hbytes, readAll_of_ok (read_encode hx e x.1 _), ih hframes]
    rfl

theorem read_newlines (e : Ending) (n : Nat) :
    (read e (List.replicate n newline)).1 = .error (e.fault .serverClose) := by
  have hfirst := readFirst_newlines e n []
  rw [List.append_nil] at hfirst
  rw [read]
  apply andThen_of_error
  rw [readTxnr, Reading.refine, hfirst]
  rfl

/-- Frames that were written one after another, with any newlines before, between and behind them,
are read as these frames and then the end of the stream; and when the stream breaks off inside a
frame, as the frames before it and then a fault that is not the end of the stream. -/
theorem readAll_stream {frames : List (Nat × Frame)} (h : ∀ x ∈ frames, x.2.WellFormed) (n : Nat) :
    readAll .closed (stream frames ++ List.replicate n newline) =
        (frames.map Prod.snd, .serverClose) ∧
      ∀ (f : Frame) (cut : Bytes), f.WellFormed → cut <+: f.encode → cut ≠ [] → cut ≠ f.encode →
        ∃ fault, fault ≠ Fault.serverClose ∧
          readAll .closed (stream frames ++ (List.replicate n newline ++ cut)) =
            (frames.map Prod.snd, fault) := by
  constructor
  · rw [readAll_stream_append h, readAll_of_error (read_newlines .closed n), List.append_nil]
    rfl
  · intro f cut hf hcut hne hshort
    obtain ⟨fault, hfault, hread⟩ := read_cut hf hcut hne hshort .closed n
    refine ⟨fault, hfault, ?_⟩
    rw [readAll_stream_append h, readAll_of_error hread, List.append_nil]
    rfl

/-- Two frames, the data of the first of which look like a frame. -/
def lookalike : List (Nat × Frame) :=
  [(2, ⟨4294967295, "rsp", Utf8.encode "200 OK\n7 rsp 0\n"⟩), (0, ⟨0, "serverclose", []⟩)]

theorem readAll_stream_lookalike :
    readAll .closed (stream lookalike ++ List.replicate 1 newline) =
        (lookalike.map Prod.snd, .serverClose) ∧
      ∃ fault, fault ≠ Fault.serverClose ∧
        readAll .closed (stream lookalike ++ (List.replicate 1 newline ++ Utf8.encode "12 rsp 1")) =
          (lookalike.map Prod.snd, fault) := by
  have hfield {command : String} (h : Utf8.encode command ≠ [] ∧
      (Utf8.encode command).length ≤ maxField ∧
      (∀ b ∈ Utf8.encode command, b ≠ blank ∧ b ≠ newline)) : IsField (Utf8.encode command) :=
    ⟨h.1, h.2.1, h.2.2⟩
  have hwell : ∀ x ∈ lookalike, x.2.WellFormed := by
    intro x hx
    simp only [lookalike, List.mem_cons, List.not_mem_nil, or_false] at hx
    rcases hx with rfl | rfl
    · exact ⟨by decide, hfield (by decide +kernel), by decide +kernel⟩
    · exact ⟨by decide, hfield (by decide +kernel), by decide +kernel⟩
  have hlast : WellFormed ⟨12, "rsp", Utf8.encode "200 hello\n"⟩ :=
    ⟨by decide, hfield (by decide +kernel), by decide +kernel⟩
  obtain ⟨hwhole, hcut⟩ := readAll_stream hwell 1
  exact ⟨hwhole, hcut _ _ hlast (by decide +kernel) (by decide +kernel) (by decide +kernel)⟩

end Frame

end EventRelay.Relp
