import EventRelay.Relp.Fault
import EventRelay.Text.Numeral

/-!
# Frames

Client and collector talk in frames: a transaction number, a command and data. On the wire a frame
is a header of number, command and length of the data, with blanks between them, then a blank and
the data if there are any, then a newline. Since the length stands in front, the data may hold any
bytes, also blanks, newlines and what looks like a frame.

`Frame.encode` writes a frame and `Frame.read` reads one. Reading is more lenient: it skips newlines
in front of a frame, numbers may have a plus and leading zeros, and a blank may stand in front of no
data. It also takes a newline for a blank between the fields of the header.
-/

namespace EventRelay.Relp

/-- A message between client and collector. -/
structure Frame where
  txnr : Nat
  command : String
  data : Bytes
deriving DecidableEq, Repr

/-- The byte between the parts of a frame. -/
def blank : UInt8 := 0x20

/-- The byte at the end of a frame. -/
def newline : UInt8 := 0x0A

/-- The most bytes that a field of the header may have. -/
def maxField : Nat := 32

/-- How a stream goes on behind the bytes that have arrived. -/
inductive Ending where
  /-- The peer has hung up. -/
  | closed
  /-- Nothing more arrives. -/
  | silent
  /-- The connection broke. -/
  | broken
deriving DecidableEq, Repr

/-- The fault of a reader that needs more bytes, where `atEnd` is what it makes of the end of the
stream. -/
def Ending.fault (atEnd : Fault) : Ending → Fault
  | .closed => atEnd
  | .silent => .timeout .read
  | .broken => .io

namespace Frame

/-- The header without what ends it. -/
def header (f : Frame) : Bytes :=
  Text.Utf8.encode f.txnr.repr ++ blank :: (Text.Utf8.encode f.command ++ blank ::
    Text.Utf8.encode f.data.length.repr)

/-- The data with the blank in front of them, if there are any. -/
def body (f : Frame) : Bytes := if f.data.isEmpty then [] else blank :: f.data

/-- The bytes of a frame. -/
def encode (f : Frame) : Bytes := f.header ++ f.body ++ [newline]

/-- The status that an answer begins with: the number written by its first three bytes. -/
def status? (f : Frame) : Option Nat :=
  if f.data.length < 3 then none
  else (Text.Utf8.decode? (f.data.take 3)).bind (Text.Numeral.below? (Text.Numeral.wordSize 16))

/-- Whether an answer reports success. -/
def isSuccess (f : Frame) : Bool := f.status? = some 200

/-- A value that was read, or a fault, and the bytes that have not been read. -/
abbrev Reading (α : Type) := Except Fault α × Bytes

/-- Reads the rest of a header field and the byte that ends it. -/
def readField (e : Ending) (field : Bytes) : Bytes → Reading (Bytes × UInt8)
  | [] => (.error (e.fault (.violation .headerCut)), [])
  | b :: rest =>
    if b = blank ∨ b = newline then
      if field.isEmpty then (.error (.violation .emptyField), rest) else (.ok (field, b), rest)
    else if maxField ≤ field.length then (.error (.violation .longField), rest)
    else readField e (field ++ [b]) rest

/-- Reads the first header field. Between two frames newlines are skipped and the stream may end. -/
def readFirst (e : Ending) (s : Bytes) : Reading (Bytes × UInt8) :=
  match s.dropWhile (· = newline) with
  | [] => (.error (e.fault .serverClose), [])
  | b :: rest => readField e [] (b :: rest)

/-- The number that a field writes, if it is below a bound. -/
def number? (bound : Nat) (field : Bytes) : Option Nat :=
  (Text.Utf8.decode? field).bind (Text.Numeral.below? bound)

/-- Reads data of a known length and the newline behind them. -/
def readData (e : Ending) (length : Nat) (s : Bytes) : Reading Bytes :=
  match s.drop length with
  | [] => (.error (e.fault .io), [])
  | b :: rest =>
    if b = newline then (.ok (s.take length), rest)
    else (.error (.violation .trailerMissing), rest)

/-- Reads what follows the length, which ended with the given byte. -/
def readBody (e : Ending) (length : Nat) (terminator : UInt8) (s : Bytes) : Reading Bytes :=
  if maxData < length then (.error (.violation (.dataTooLong length)), s)
  else if terminator = blank then readData e length s
  else if 0 < length then (.error (.violation (.dataMissing length)), s)
  else (.ok [], s)

/-- Goes on reading with what was read so far, unless there was a fault. -/
def Reading.andThen {α β : Type} (x : Reading α) (f : α → Bytes → Reading β) : Reading β :=
  match x with
  | (.ok a, rest) => f a rest
  | (.error e, rest) => (.error e, rest)

/-- Makes something of what was read, or finds it in violation of the protocol. -/
def Reading.refine {α β : Type} (x : Reading α) (v : Violation) (f : α → Option β) : Reading β :=
  x.andThen fun a rest =>
    match f a with
    | some b => (.ok b, rest)
    | none => (.error (.violation v), rest)

/-- Reads the transaction number. -/
def readTxnr (e : Ending) (s : Bytes) : Reading Nat :=
  Reading.refine (readFirst e s) .transactionNotNumber fun x =>
    number? (Text.Numeral.wordSize 32) x.1

/-- Reads the command. -/
def readCommand (e : Ending) (s : Bytes) : Reading String :=
  Reading.refine (readField e [] s) .commandNotText fun x => Text.Utf8.decode? x.1

/-- Reads the length of the data and the byte that ends it. -/
def readLength (e : Ending) (s : Bytes) : Reading (Nat × UInt8) :=
  Reading.refine (readField e [] s) .lengthNotNumber fun x =>
    (number? (Text.Numeral.wordSize 64) x.1).map fun n => (n, x.2)

/-- Reads one frame. -/
def read (e : Ending) (s : Bytes) : Reading Frame :=
  Reading.andThen (readTxnr e s) fun txnr s =>
  Reading.andThen (readCommand e s) fun command s =>
  Reading.andThen (readLength e s) fun length s =>
  Reading.andThen (readBody e length.1 length.2 s) fun data s => (.ok ⟨txnr, command, data⟩, s)

/-! ## What a reader leaves is shorter -/

theorem length_readField (e : Ending) (field s : Bytes) :
    (readField e field s).2.length ≤ s.length := by
  induction s generalizing field with
  | nil => simp [readField]
  | cons b rest ih =>
    unfold readField
    split
    · split <;> simp
    · split
      · simp
      · have := ih (field ++ [b]); simp only [List.length_cons]; omega

theorem readField_ok_lt {e : Ending} {field s : Bytes} {x : Bytes × UInt8}
    (h : (readField e field s).1 = .ok x) : (readField e field s).2.length < s.length := by
  cases s with
  | nil => simp [readField] at h
  | cons b rest =>
    unfold readField
    split
    · split <;> simp
    · split
      · simp
      · have := length_readField e (field ++ [b]) rest; simp only [List.length_cons]; omega

theorem readFirst_ok_lt {e : Ending} {s : Bytes} {x : Bytes × UInt8}
    (h : (readFirst e s).1 = .ok x) : (readFirst e s).2.length < s.length := by
  have hd : (s.dropWhile (· = newline)).length ≤ s.length := (List.dropWhile_suffix _).length_le
  unfold readFirst at h ⊢
  revert h
  split
  · simp
  · next b rest hs =>
    intro h
    have := readField_ok_lt h
    rw [hs] at hd
    omega

theorem length_readData (e : Ending) (length : Nat) (s : Bytes) :
    (readData e length s).2.length ≤ s.length := by
  unfold readData
  split
  · simp
  · next b rest h =>
    have : (s.drop length).length ≤ s.length := by simp
    rw [h, List.length_cons] at this
    split <;> simp only <;> omega

theorem length_readBody (e : Ending) (length : Nat) (terminator : UInt8) (s : Bytes) :
    (readBody e length terminator s).2.length ≤ s.length := by
  unfold readBody
  split
  · simp
  · split
    · exact length_readData e length s
    · split <;> simp

theorem andThen_ok {α β : Type} {x : Reading α} {f : α → Bytes → Reading β} {b : β}
    (h : (Reading.andThen x f).1 = .ok b) :
    ∃ a, x.1 = .ok a ∧ (f a x.2).1 = .ok b ∧ (Reading.andThen x f).2 = (f a x.2).2 := by
  obtain ⟨x, rest⟩ := x
  cases x with
  | error e => simp [Reading.andThen] at h
  | ok a => exact ⟨a, rfl, h, rfl⟩

theorem refine_ok {α β : Type} {x : Reading α} {v : Violation} {f : α → Option β} {b : β}
    (h : (Reading.refine x v f).1 = .ok b) :
    ∃ a, x.1 = .ok a ∧ f a = some b ∧ (Reading.refine x v f).2 = x.2 := by
  obtain ⟨a, ha, hb, hrest⟩ := andThen_ok h
  refine ⟨a, ha, ?_, ?_⟩
  · split at hb <;> simp_all
  · rw [Reading.refine, hrest]; split <;> rfl

theorem readTxnr_ok_lt {e : Ending} {s : Bytes} {n : Nat} (h : (readTxnr e s).1 = .ok n) :
    (readTxnr e s).2.length < s.length := by
  obtain ⟨x, hx, -, hrest⟩ := refine_ok h
  rw [readTxnr, hrest]
  exact readFirst_ok_lt hx

theorem readCommand_ok_lt {e : Ending} {s : Bytes} {c : String} (h : (readCommand e s).1 = .ok c) :
    (readCommand e s).2.length < s.length := by
  obtain ⟨x, hx, -, hrest⟩ := refine_ok h
  rw [readCommand, hrest]
  exact readField_ok_lt hx

theorem readLength_ok_lt {e : Ending} {s : Bytes} {x : Nat × UInt8}
    (h : (readLength e s).1 = .ok x) : (readLength e s).2.length < s.length := by
  obtain ⟨y, hy, -, hrest⟩ := refine_ok h
  rw [readLength, hrest]
  exact readField_ok_lt hy

/-- A frame takes at least one byte. -/
theorem read_ok_lt {e : Ending} {s : Bytes} {f : Frame} (h : (read e s).1 = .ok f) :
    (read e s).2.length < s.length := by
  unfold read at h ⊢
  obtain ⟨n, hn, h, eq₁⟩ := andThen_ok h
  obtain ⟨c, hc, h, eq₂⟩ := andThen_ok h
  obtain ⟨l, hl, h, eq₃⟩ := andThen_ok h
  obtain ⟨d, -, -, eq₄⟩ := andThen_ok h
  rw [eq₁, eq₂, eq₃, eq₄]
  have h₁ := readTxnr_ok_lt hn
  have h₂ := readCommand_ok_lt hc
  have h₃ := readLength_ok_lt hl
  have h₄ := length_readBody e l.1 l.2 (readLength e (readCommand e (readTxnr e s).2).2).2
  simp only
  omega

/-- The frames of a stream, and the fault behind the last of them. -/
def readAll (e : Ending) (s : Bytes) : List Frame × Fault :=
  match h : read e s with
  | (.error f, _) => ([], f)
  | (.ok f, rest) =>
    have : rest.length < s.length := by
      have := read_ok_lt (e := e) (s := s) (f := f) (by rw [h])
      rwa [h] at this
    let x := readAll e rest
    (f :: x.1, x.2)
termination_by s.length

end Frame

end EventRelay.Relp
