import EventRelay.Text.Utf8

/-!
# What goes wrong with a collector

A fault says what the client of a collector ran into: the network failed, the collector took too
long, broke the protocol, said that it closes, or there was no connection in the first place.
Breaking the protocol has causes of its own (`Violation`), most of them about the header of a frame.
-/

namespace EventRelay.Relp

/-- What the client waits for, each for a limited time. -/
inductive Phase where
  | connect
  | read
  | write
deriving DecidableEq, Repr

/-- How long the client waits, in milliseconds. -/
def Phase.limit : Phase → Nat
  | .connect => 10000
  | .read => 15000
  | .write => 5000

/-- The word for what the client waits for. -/
def Phase.word : Phase → String
  | .connect => "connect"
  | .read => "read"
  | .write => "write"

/-- The most bytes of data that a frame may carry. -/
def maxData : Nat := 134217728

/-- How a collector breaks the protocol. -/
inductive Violation where
  /-- The stream ends inside the header of a frame. -/
  | headerCut
  | emptyField
  | longField
  | transactionNotNumber
  | commandNotText
  | lengthNotNumber
  | dataTooLong (length : Nat)
  | trailerMissing
  /-- The frame ends where its data should begin. -/
  | dataMissing (length : Nat)
  /-- A command is answered, but not with success. -/
  | rejected (command : String) (answer : Bytes)
deriving DecidableEq, Repr

/-- The words for a violation. -/
def Violation.message : Violation → String
  | .headerCut => "stream ended inside a frame header"
  | .emptyField => "empty frame header field"
  | .longField => "frame header too long"
  | .transactionNotNumber => "invalid transaction number"
  | .commandNotText => "command is not UTF-8"
  | .lengthNotNumber => "invalid data length"
  | .dataTooLong length => s!"data length {length} exceeds {maxData} bytes"
  | .trailerMissing => "missing frame trailer"
  | .dataMissing length => s!"frame ended before {length} bytes of data"
  | .rejected command answer => s!"{command} rejected: {Text.Utf8.decodeLossy answer}"

/-- What the client of a collector runs into. -/
inductive Fault where
  /-- The network failed. -/
  | io
  | timeout (phase : Phase)
  | violation (v : Violation)
  /-- The collector closes, by saying so or by ending the stream between two frames. -/
  | serverClose
  | notConnected
deriving DecidableEq, Repr

namespace Fault

/-- The words for a fault. A failure of the network has none of its own: it is described by the
system. -/
def message? : Fault → Option String
  | .io => none
  | .timeout phase => some s!"{phase.word} timed out"
  | .violation v => some s!"Protocol error: {v.message}"
  | .serverClose => some "Server closed the connection"
  | .notConnected => some "Not connected"

/-- How long it takes to run into a fault: a timeout takes its time, the others show at once. -/
def delay : Fault → Nat
  | .timeout phase => phase.limit
  | _ => 0

end Fault

end EventRelay.Relp
