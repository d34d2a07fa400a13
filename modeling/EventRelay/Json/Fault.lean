import EventRelay.Text.Utf8

/-!
# Why a text is no JSON

A fault is a cause and the bytes that lie behind the place it names: a reader knows what is left,
and the place as a line and a column is worked out only when the fault is shown. Two kinds of place
occur. A reader that has taken the offending byte names the place behind it (`Fault.mk`); one that
has only looked at it names the place behind that byte all the same, or the end (`Fault.past`).
-/

namespace EventRelay.Json

/-- What is wrong with a text that is no JSON. -/
inductive Cause where
  | unfinishedValue
  | unfinishedText
  | unfinishedArray
  | unfinishedObject
  | valueExpected
  | wordExpected
  | colonExpected
  | arraySeparatorExpected
  | objectSeparatorExpected
  | keyNotText
  | trailingComma
  | trailingBytes
  | badNumber
  | numberTooLarge
  | badEscape
  | loneSurrogate
  | unfinishedSurrogatePair
  | controlCharacter
  /-- The text ends with this many bytes from the first that encodes no character. -/
  | badEncoding (behind : Nat)
  | tooDeep
deriving DecidableEq, Repr

/-- The words for a cause. -/
def Cause.message : Cause → String
  | unfinishedValue => "EOF while parsing a value"
  | unfinishedText => "EOF while parsing a string"
  | unfinishedArray => "EOF while parsing a list"
  | unfinishedObject => "EOF while parsing an object"
  | valueExpected => "expected value"
  | wordExpected => "expected ident"
  | colonExpected => "expected `:`"
  | arraySeparatorExpected => "expected `,` or `]`"
  | objectSeparatorExpected => "expected `,` or `\x7d`"
  | keyNotText => "key must be a string"
  | trailingComma => "trailing comma"
  | trailingBytes => "trailing characters"
  | badNumber => "invalid number"
  | numberTooLarge => "number out of range"
  | badEscape => "invalid escape"
  | loneSurrogate => "lone leading surrogate in hex escape"
  | unfinishedSurrogatePair => "unexpected end of hex escape"
  | controlCharacter => "control character (\\u0000-\\u001F) found while parsing a string"
  | badEncoding _ => "invalid unicode code point"
  | tooDeep => "recursion limit exceeded"

/-- A cause and what lies behind the place it names. -/
structure Fault where
  cause : Cause
  left : Bytes
deriving DecidableEq, Repr

namespace Fault

/-- A fault at a byte that was looked at but not taken, or at the end. -/
def past (cause : Cause) (rest : Bytes) : Fault := ⟨cause, rest.drop 1⟩

/-- The line of the place, counted from one. -/
def line (input : Bytes) (f : Fault) : Nat :=
  1 + (input.take (input.length - f.left.length)).count 0x0A

/-- How many bytes of its line lie before the place; a badly encoded text is named where its good
part ends. -/
def column (input : Bytes) (f : Fault) : Nat :=
  let read := input.take (input.length - f.left.length)
  let ofLine := (read.reverse.takeWhile (· != 0x0A)).length
  match f.cause with
  | .badEncoding behind => ofLine - behind
  | _ => ofLine

/-- The fault as it is shown to the client that sent the input. -/
def message (input : Bytes) (f : Fault) : String :=
  s!"{f.cause.message} at line {f.line input} column {f.column input}"

end Fault

end EventRelay.Json
