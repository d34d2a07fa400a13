import EventRelay.Ack.Registry
import EventRelay.Endpoint
import EventRelay.Net.IpAddress
import EventRelay.Text.Blank

/-!
# Settings

How the relay is set up by its environment: where the messages go, what the registry may hold, where
requests come in. Every setting has a default, and a value that cannot be read counts as absent.
What has been read may still make no sense, and `check` finds the first setting that does not:
settings that pass describe a pool that can be built and a registry that can hold something.
-/

namespace EventRelay

/-- The settings of a relay; times are in milliseconds. -/
structure Settings where
  /-- Where messages go. -/
  collectorHost : String := "127.0.0.1"
  collectorPort : Nat := 601
  /-- The name of the transport. -/
  protocol : String := "RELP"
  /-- The number of senders. -/
  connections : Nat := 1
  /-- How lines are signed. -/
  hostname : String := "localhost"
  appname : String := "hec-gateway"
  limits : Ack.Limits := {}
  /-- How often the registry is swept. -/
  pollTime : Nat := 30000
  /-- Where requests come in. -/
  listenAddress : Net.IpAddress := .v4 #v[127, 0, 0, 1]
  listenPort : Nat := 8080
  /-- The largest body of a request. -/
  maxBody : Nat := 10485760
  retry : Delivery.RetryPolicy := {}
  logLevel : String := "info"
deriving DecidableEq, Repr

namespace Settings

/-- Names with their values. Of several values of one name the last counts. -/
abbrev Environment := List (String × String)

/-- The value of a name, without the blanks around it. -/
def Environment.get? (name : String) (env : Environment) : Option String :=
  (env.reverse.lookup name).map Text.trim

/-- A text, or the default if there is none or it is blank. -/
def Environment.text (name default : String) (env : Environment) : String :=
  match env.get? name with
  | some value => if value.isEmpty then default else value
  | none => default

/-- A number below a bound, or the default. -/
def Environment.number (name : String) (bound default : Nat) (env : Environment) : Nat :=
  ((env.get? name).bind (Text.Numeral.below? bound)).getD default

/-- The settings that an environment describes. -/
def ofEnvironment (env : Environment) : Settings :=
  let d : Settings := {}
  let port := Text.Numeral.wordSize 16
  let word := Text.Numeral.wordSize 64
  { collectorHost := env.text "SYSLOG_SERVER_HOST" d.collectorHost
    collectorPort := env.number "SYSLOG_SERVER_PORT" port d.collectorPort
    protocol := env.text "SYSLOG_SERVER_PROTOCOL" d.protocol
    connections := env.number "SYSLOG_SERVER_CONNECTIONS" word d.connections
    hostname := env.text "SYSLOG_HOSTNAME" d.hostname
    appname := env.text "SYSLOG_APPNAME" d.appname
    limits :=
      { maxSessions := env.number "MAX_CHANNELS" word d.limits.maxSessions
        maxAcks := env.number "MAX_ACK_VALUE" word d.limits.maxAcks
        maxAckAge := env.number "MAX_ACK_AGE" word d.limits.maxAckAge
        maxSessionAge := env.number "MAX_SESSION_AGE" word d.limits.maxSessionAge }
    pollTime := env.number "POLL_TIME" word d.pollTime
    listenAddress :=
      ((env.get? "SERVER_LISTEN_ADDRESS").bind Net.IpAddress.ofText?).getD d.listenAddress
    listenPort := env.number "SERVER_PORT" port d.listenPort
    maxBody := env.number "MAX_REQUEST_CONTENT_LENGTH" word d.maxBody
    retry :=
      { interval := env.number "SENDER_RECONNECT_INTERVAL" word d.retry.interval
        -- no attempts at all stands for any number of them
        maxAttempts :=
          ((env.get? "SENDER_MAX_ATTEMPTS").bind
            (Text.Numeral.below? (Text.Numeral.wordSize 32))).filter (0 < ·) }
    logLevel := ((env.get? "LOG_LEVEL").map Text.lowercase).getD d.logLevel }

/-- What makes no sense about settings. -/
inductive Fault where
  | collectorHostBlank
  | collectorPortZero
  | listenPortZero
  | unsupportedProtocol (name : String)
  /-- Messages kept in memory reach no collector. -/
  | memoryProtocol (name : String)
  /-- The setting of a name must not be zero. -/
  | zero (name : String)
  | unknownLogLevel (level : String)
deriving DecidableEq, Repr

/-- The levels of logging. -/
def logLevels : List String := ["trace", "debug", "info", "warn", "error"]

/-- What is wrong, in words. -/
def Fault.detail : Fault → String
  | .collectorHostBlank => "SYSLOG_SERVER_HOST cannot be empty"
  | .collectorPortZero => "Syslog server port must be greater than 0"
  | .listenPortZero => "Server port must be greater than 0"
  | .unsupportedProtocol name => (Delivery.Fault.unsupportedProtocol name).message
  | .memoryProtocol name =>
    s!"Invalid connection type: {name} cannot be used to run the gateway"
  | .zero name => s!"{name} must be greater than 0"
  | .unknownLogLevel level =>
    s!"Invalid log level '{level}'. Must be one of: " ++ String.intercalate ", " logLevels

/-- The words for a fault. -/
def Fault.message (f : Fault) : String := s!"Invalid configuration: {f.detail}"

/-- The settings that must not be zero, by name. -/
def positives (s : Settings) : List (String × Nat) :=
  [("SYSLOG_SERVER_CONNECTIONS", s.connections), ("MAX_CHANNELS", s.limits.maxSessions),
    ("MAX_ACK_VALUE", s.limits.maxAcks), ("MAX_REQUEST_CONTENT_LENGTH", s.maxBody),
    ("MAX_ACK_AGE", s.limits.maxAckAge), ("MAX_SESSION_AGE", s.limits.maxSessionAge),
    ("POLL_TIME", s.pollTime)]

/-- What is wrong with the name of a transport. -/
def protocolFault? (name : String) : Option Fault :=
  match Protocol.ofName? name with
  | none => some (.unsupportedProtocol name)
  | some .memory => some (.memoryProtocol name)
  | some .relp => none

/-- The first thing that makes no sense, if there is any. -/
def fault? (s : Settings) : Option Fault :=
  if (Text.trim s.collectorHost).isEmpty then some .collectorHostBlank
  else if s.collectorPort = 0 then some .collectorPortZero
  else if s.listenPort = 0 then some .listenPortZero
  else
    match protocolFault? s.protocol with
    | some f => some f
    | none =>
      match s.positives.find? fun p => p.2 = 0 with
      | some p => some (.zero p.1)
      | none => if s.logLevel ∈ logLevels then none else some (.unknownLogLevel s.logLevel)

/-- Finds the first thing that makes no sense. -/
def check (s : Settings) : Except Fault Unit :=
  match s.fault? with
  | some f => .error f
  | none => .ok ()

/-- The settings that an environment describes, if they make sense. -/
def load (env : Environment) : Except Fault Settings :=
  let s := ofEnvironment env
  s.check.map fun _ => s

/-- Where the senders of the relay connect. -/
def destination (s : Settings) : Destination where
  protocol := s.protocol
  host := s.collectorHost
  port := s.collectorPort
  connections := s.connections
  retry := s.retry

/-- Where requests come in, as text. -/
def listenText (s : Settings) : String := s.listenAddress.withPort s.listenPort

end Settings

end EventRelay
