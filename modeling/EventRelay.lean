import EventRelay.Ack.Operation
import EventRelay.Ack.Registry
import EventRelay.Ack.Statuses
import EventRelay.Ack.Sweeper
import EventRelay.Calendar
import EventRelay.Decimal.Binary64
import EventRelay.Decimal.Layout
import EventRelay.Decimal.Literal
import EventRelay.Decimal.Power
import EventRelay.Decimal.Shortest
import EventRelay.Delivery.Batch
import EventRelay.Delivery.Memory
import EventRelay.Delivery.Operation
import EventRelay.Delivery.Pool
import EventRelay.Delivery.Recorded
import EventRelay.Delivery.Scripted
import EventRelay.Delivery.Sender
import EventRelay.Delivery.Transport
import EventRelay.Endpoint
import EventRelay.Event.Body
import EventRelay.Event.Time
import EventRelay.Http.Headers
import EventRelay.Http.Request
import EventRelay.Http.Response
import EventRelay.Http.Server
import EventRelay.Json.Fault
import EventRelay.Json.Numeric
import EventRelay.Json.Printer
import EventRelay.Json.Quoted
import EventRelay.Json.Reader
import EventRelay.Json.Value
import EventRelay.Net.IpAddress
import EventRelay.Proofs.Ack.Acked
import EventRelay.Proofs.Ack.Activity
import EventRelay.Proofs.Ack.Bounds
import EventRelay.Proofs.Ack.Channels
import EventRelay.Proofs.Ack.Counter
import EventRelay.Proofs.Ack.Eviction
import EventRelay.Proofs.Ack.History
import EventRelay.Proofs.Ack.Isolation
import EventRelay.Proofs.Ack.Listing
import EventRelay.Proofs.Ack.Lookup
import EventRelay.Proofs.Ack.Numbering
import EventRelay.Proofs.Ack.Ownership
import EventRelay.Proofs.Ack.Reporting
import EventRelay.Proofs.Ack.Statuses
import EventRelay.Proofs.Ack.Step
import EventRelay.Proofs.Ack.Sweeping
import EventRelay.Proofs.Decimal.Literal
import EventRelay.Proofs.Decimal.Rounding
import EventRelay.Proofs.Decimal.Shortest
import EventRelay.Proofs.Delivery.Attempts
import EventRelay.Proofs.Delivery.Batch
import EventRelay.Proofs.Delivery.Conduct
import EventRelay.Proofs.Delivery.Confirmation
import EventRelay.Proofs.Delivery.Discipline
import EventRelay.Proofs.Delivery.Limited
import EventRelay.Proofs.Delivery.Memory
import EventRelay.Proofs.Delivery.Observed
import EventRelay.Proofs.Delivery.Pooling
import EventRelay.Proofs.Delivery.Renewal
import EventRelay.Proofs.Delivery.Resending
import EventRelay.Proofs.Delivery.Rounds
import EventRelay.Proofs.Endpoint
import EventRelay.Proofs.Event.Body
import EventRelay.Proofs.Event.Concatenation
import EventRelay.Proofs.Event.Inheritance
import EventRelay.Proofs.Event.Time
import EventRelay.Proofs.Http.Framing
import EventRelay.Proofs.Http.Rejection
import EventRelay.Proofs.Http.Token
import EventRelay.Proofs.Json.Integer
import EventRelay.Proofs.Json.Prefix
import EventRelay.Proofs.Json.Sequence
import EventRelay.Proofs.Json.Written
import EventRelay.Proofs.Relp.Canonical
import EventRelay.Proofs.Relp.Commit
import EventRelay.Proofs.Relp.Delivery
import EventRelay.Proofs.Relp.Exchange
import EventRelay.Proofs.Relp.Grammar
import EventRelay.Proofs.Relp.Outcome
import EventRelay.Proofs.Relp.Session
import EventRelay.Proofs.Relp.Stream
import EventRelay.Proofs.Relp.Traced
import EventRelay.Proofs.Service.Admission
import EventRelay.Proofs.Service.Allocation
import EventRelay.Proofs.Service.Delivered
import EventRelay.Proofs.Service.Honesty
import EventRelay.Proofs.Service.Receipt
import EventRelay.Proofs.Settings
import EventRelay.Proofs.Syslog.Reading
import EventRelay.Proofs.Text.LetterCase
import EventRelay.Proofs.Text.Numeral
import EventRelay.Proofs.Text.Utf8
import EventRelay.Relp.Collector
import EventRelay.Relp.Connection
import EventRelay.Relp.Fault
import EventRelay.Relp.Frame
import EventRelay.Relp.Operation
import EventRelay.Relp.Socket
import EventRelay.Relp.Wire
import EventRelay.Service.Basic
import EventRelay.Service.Fault
import EventRelay.Service.Operation
import EventRelay.Settings
import EventRelay.Syslog.Message
import EventRelay.Text.Blank
import EventRelay.Text.LetterCase
import EventRelay.Text.LetterCase.Table
import EventRelay.Text.Numeral
import EventRelay.Text.Utf8
