import EventRelay.Http.Headers
import EventRelay.Service.Fault
import EventRelay.Text.Numeral

/-!
# Responses

What a client gets: a status and a body. Every body is JSON, and the body of anything but a success
is a text with a code that tells the causes of one status apart. `refusal?` are the responses to a
request whose length is missing, unreadable or too large, given before anything of its body is read.
-/

namespace EventRelay.Http

/-- What a client gets. -/
structure Response where
  status : Nat
  contentType : Option String
  body : Bytes
deriving DecidableEq, Repr

namespace Response

/-- A response whose body is JSON. -/
def json (status : Nat) (body : Json) : Response where
  status
  contentType := some "application/json"
  body := Text.Utf8.encode body.compact

/-- A response that is a text with a code. -/
def message (status code : Nat) (text : String) : Response :=
  .json status (.ofFields [("text", .text text), ("code", .number (.integer code))])

/-- The response where there is nothing to be found. -/
def notFound : Response := ⟨404, none, []⟩

end Response

/-- What a client is told about a fault: the status and the code. -/
def statusOf : Service.Fault → Nat × Nat
  | .tokenMissing => (401, 2)
  | .channelMissing => (400, 10)
  | .noData => (400, 5)
  | .invalidData _ => (400, 6)
  | .eventMissing => (400, 12)
  | .eventBlank => (400, 13)
  | .ack (.invalidId _) => (400, 6)
  | .ack .sessionNotFound => (404, 11)
  | .ack .channelNotFound => (404, 11)
  | .ack (.busy _ _) => (503, 9)
  | .delivery _ => (500, 8)

/-- The response to a request that is not served. -/
def Response.ofFault (f : Service.Fault) : Response :=
  .message (statusOf f).1 (statusOf f).2 f.message

/-- The response to a body that is too large. -/
def tooLarge (task : String) : Response := .message 413 6 s!"{task}: Payload too large"

/-- The response to a request whose headers do not promise a body of at most that many bytes, if
they do not. A request in parts promises nothing and is bounded as it is read. -/
def Headers.refusal? (limit : Nat) (task : String) (h : Headers) : Option Response :=
  match h.get? "content-length" with
  | none =>
    if (h.get? "transfer-encoding").isSome then none
    else
      some (.message 411 5 s!"{task}: Missing Content-Length and Transfer-Encoding header")
  | some value =>
    match (valueText? value).bind (Text.Numeral.below? (Text.Numeral.wordSize 64)) with
    | none => some (.message 400 6 s!"{task}: Invalid Content-Length header")
    | some length => if limit < length then some (tooLarge task) else none

end EventRelay.Http
