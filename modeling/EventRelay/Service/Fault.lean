import EventRelay.Ack.Registry
import EventRelay.Delivery.Sender
import EventRelay.Event.Body

/-!
# Why a request is not served

A request may lack something, carry a body that does not make sense, be refused by the registry, or
fail to be delivered. Each cause has words for the client; those of the registry and of the senders
are passed on as they are.
-/

namespace EventRelay.Service

/-- Why a request is not served. -/
inductive Fault where
  | tokenMissing
  | channelMissing
  | noData
  /-- The body is not what was asked for; in words. -/
  | invalidData (detail : String)
  | eventMissing
  | eventBlank
  | ack (refusal : Ack.Refusal)
  | delivery (fault : Delivery.Fault)
deriving DecidableEq, Repr

namespace Fault

/-- The words for a fault. -/
def message : Fault → String
  | .tokenMissing => "Token is required"
  | .channelMissing => "Data channel is missing"
  | .noData => "No data"
  | .invalidData detail => s!"Invalid data format: {detail}"
  | .eventMissing => "Event field is required"
  | .eventBlank => "Event field cannot be blank"
  | .ack refusal => refusal.message
  | .delivery fault => fault.message

/-- A body that is no JSON. -/
def ofSyntax (body : Bytes) (f : Json.Fault) : Fault := .invalidData (f.message body)

/-- A body that holds no events. -/
def ofEvents (body : Bytes) : Event.Fault → Fault
  | .syntaxFault f => ofSyntax body f
  | .notAnObject v => .invalidData s!"expected an event object, got {v.compact}"
  | .eventMissing => .eventMissing
  | .eventBlank => .eventBlank

/-- Whether a limit of the registry was reached. -/
def isBusy : Fault → Bool
  | .ack refusal => refusal.isBusy
  | _ => false

end Fault

end EventRelay.Service
