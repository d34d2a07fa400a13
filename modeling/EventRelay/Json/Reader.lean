import EventRelay.Json.Quoted

/-!
# Reading JSON

A reader takes a value off the front of the bytes and says what is left, which is shorter than what
it was given; so loops over elements need no bound of their own. How deep values may nest is part of
the format (`depthLimit`), and reading recurses on that depth: `valueWith` reads one level and is
told how to read the levels below it.

Two ways lead in: `document` reads one value that fills the input, `next?` the next of a sequence of
values that stand one behind the other. In a sequence a number or a word must end where the next
value or blank begins, while values with brackets or quotes delimit themselves.
-/

namespace EventRelay.Json

/-- Whether a byte separates tokens: space, tab, line feed or carriage return. -/
def isSpace (b : UInt8) : Bool := b = 0x20 || b = 0x09 || b = 0x0A || b = 0x0D

/-- What stands behind the white space at the front. -/
def skipSpace (s : Bytes) : Bytes := s.dropWhile isSpace

theorem length_skipSpace_le (s : Bytes) : (skipSpace s).length ≤ s.length :=
  (List.dropWhile_sublist _).length_le

/-- Takes a value of type `α` off the front, leaving less. -/
abbrev Reader (α : Type) := (s : Bytes) → Except Fault (Taken α s)

/-- What is left behind the rest of a word. -/
def word : (letters s : Bytes) → Except Fault { r : Bytes // r.length ≤ s.length }
  | [], s => .ok ⟨s, Nat.le_refl _⟩
  | _ :: _, [] => .error ⟨.unfinishedValue, []⟩
  | l :: letters, b :: s =>
    if b = l then
      match word letters s with
      | .error f => .error f
      | .ok r => .ok ⟨r.val, Nat.le_succ_of_le r.property⟩
    else .error ⟨.wordExpected, s⟩

/-- How a bracketed sequence ends, and what is wrong with one that does not. -/
structure Brackets where
  close : UInt8
  unfinished : Cause
  separator : Cause

/-- The brackets of an array. -/
def arrayBrackets : Brackets := ⟨0x5D, .unfinishedArray, .arraySeparatorExpected⟩

/-- The brackets of an object. -/
def objectBrackets : Brackets := ⟨0x7D, .unfinishedObject, .objectSeparatorExpected⟩

/-- Reads what follows an item: the closing bracket, or a comma and the next item. -/
def moreItems {α : Type} (k : Brackets) (item : Reader α) (s : Bytes) :
    Except Fault (Taken (List α) s) :=
  match h : skipSpace s with
  | [] => .error ⟨k.unfinished, []⟩
  | b :: t =>
    have ht : t.length < s.length := by
      have := length_skipSpace_le s; rw [h] at this; exact this
    if b = k.close then .ok ⟨[], t, ht⟩
    else if b = 0x2C then
      match hu : skipSpace t with
      | [] => .error ⟨.unfinishedValue, []⟩
      | c :: u =>
        have hc : (c :: u).length ≤ t.length := by rw [← hu]; exact length_skipSpace_le t
        if c = k.close then .error ⟨.trailingComma, u⟩
        else
          match item (c :: u) with
          | .error f => .error f
          | .ok x =>
            have hx : x.rest.length < s.length := by have := x.shorter; omega
            match moreItems k item x.rest with
            | .error f => .error f
            | .ok y => .ok ⟨x.value :: y.value, y.rest, by have := y.shorter; omega⟩
    else .error ⟨k.separator, t⟩
termination_by s.length

/-- Reads a sequence behind its opening bracket. -/
def items {α : Type} (k : Brackets) (item : Reader α) : Reader (List α) := fun s =>
  match h : skipSpace s with
  | [] => .error ⟨k.unfinished, []⟩
  | b :: t =>
    have hb : (b :: t).length ≤ s.length := by rw [← h]; exact length_skipSpace_le s
    if b = k.close then .ok ⟨[], t, hb⟩
    else
      match item (b :: t) with
      | .error f => .error f
      | .ok x =>
        match moreItems k item x.rest with
        | .error f => .error f
        | .ok y =>
          .ok ⟨x.value :: y.value, y.rest, by have := x.shorter; have := y.shorter; omega⟩

/-- Reads a field of an object: its name, a colon and its value. -/
def field (value : Reader Json) : Reader (String × Json) := fun s =>
  match s with
  | [] => .error ⟨.unfinishedValue, []⟩
  | b :: t =>
    if b = 0x22 then
      match Quoted.read t with
      | .error f => .error f
      | .ok name =>
        match h : skipSpace name.rest with
        | [] => .error ⟨.unfinishedObject, []⟩
        | c :: u =>
          if c = 0x3A then
            match value u with
            | .error f => .error f
            | .ok x =>
              .ok ⟨(name.value, x.value), x.rest, by
                have h1 := length_skipSpace_le name.rest
                have h2 := name.shorter
                have h3 := x.shorter
                rw [h] at h1
                simp only [List.length_cons] at h1 ⊢
                omega⟩
          else .error ⟨.colonExpected, u⟩
    else .error ⟨.keyNotText, t⟩

/-- Reads the word whose first letter has been taken. -/
def wordValue (letters : Bytes) (v : Json) (b : UInt8) (t : Bytes) :
    Except Fault (Taken Json (b :: t)) :=
  match word letters t with
  | .error f => .error f
  | .ok r => .ok ⟨v, r.val, Nat.lt_succ_of_le r.property⟩

/-- Reads what stands behind the first byte of a value. -/
def valueFrom (nested : Option (Reader Json)) (b : UInt8) (t : Bytes) :
    Except Fault (Taken Json (b :: t)) :=
  let ofRest {α : Type} (make : α → Json) :
      Except Fault (Taken α t) → Except Fault (Taken Json (b :: t))
    | .error f => .error f
    | .ok x => .ok ⟨make x.value, x.rest, Nat.lt_succ_of_lt x.shorter⟩
  if b = 0x22 then ofRest .text (Quoted.read t)
  else if b = 0x5B then
    match nested with
    | none => .error ⟨.tooDeep, t⟩
    | some value => ofRest .array (items arrayBrackets value t)
  else if b = 0x7B then
    match nested with
    | none => .error ⟨.tooDeep, t⟩
    | some value => ofRest ofFields (items objectBrackets (field value) t)
  else if b = 0x2D then ofRest .number (Numeric.read true t)
  else if Numeric.isDigit b then
    match Numeric.read false (b :: t) with
    | .error f => .error f
    | .ok x => .ok ⟨.number x.value, x.rest, x.shorter⟩
  else if b = 0x6E then wordValue [0x75, 0x6C, 0x6C] .null b t
  else if b = 0x74 then wordValue [0x72, 0x75, 0x65] (.bool true) b t
  else if b = 0x66 then wordValue [0x61, 0x6C, 0x73, 0x65] (.bool false) b t
  else .error ⟨.valueExpected, t⟩

/-- Reads one level of a value, white space in front allowed. -/
def valueWith (nested : Option (Reader Json)) : Reader Json := fun s =>
  match h : skipSpace s with
  | [] => .error ⟨.unfinishedValue, []⟩
  | b :: t =>
    match valueFrom nested b t with
    | .error f => .error f
    | .ok x => .ok (x.of_le (by rw [← h]; exact length_skipSpace_le s))

/-- Reads a value in which brackets nest at most so deep. -/
def value : Nat → Reader Json
  | 0 => valueWith none
  | depth + 1 => valueWith (some (value depth))

/-- How deep brackets may nest. -/
def depthLimit : Nat := 127

/-- Whether a value that starts with this byte shows by itself where it ends. -/
def delimitsItself (b : UInt8) : Bool := b = 0x5B || b = 0x22 || b = 0x7B

/-- Whether a byte may stand directly behind a number or a word. -/
def endsWord (b : UInt8) : Bool :=
  isSpace b || delimitsItself b || b = 0x5D || b = 0x7D || b = 0x2C || b = 0x3A

/-- Reads the next value of a sequence; nothing when only white space is left. -/
def next? (s : Bytes) : Except Fault (Option (Taken Json s)) :=
  match h : skipSpace s with
  | [] => .ok none
  | b :: t =>
    match value depthLimit (b :: t) with
    | .error f => .error f
    | .ok x =>
      let taken := x.of_le (by rw [← h]; exact length_skipSpace_le s)
      if delimitsItself b then .ok (some taken)
      else
        match x.rest with
        | [] => .ok (some taken)
        | c :: u => if endsWord c then .ok (some taken) else .error ⟨.trailingBytes, u⟩

/-- Reads an input that holds one value and white space around it. -/
def document (s : Bytes) : Except Fault Json :=
  match value depthLimit s with
  | .error f => .error f
  | .ok x =>
    match skipSpace x.rest with
    | [] => .ok x.value
    | _ :: t => .error ⟨.trailingBytes, t⟩

end EventRelay.Json
