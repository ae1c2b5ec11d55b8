import PollSocket.Duration
import PollSocket.Log.Level

set_option autoImplicit false

/-!
# Configuration

The settings of the server, of the client and of the log, with their defaults, and the rules that a
configuration has to keep. The rules are checked in a fixed order and the first that is broken is
reported. Lengths of time are in nanoseconds.
-/

namespace PollSocket

/-- Settings of the server. -/
structure ServerConfig where
  addr : String := ":8080"
  /-- Where the endpoint is mounted. -/
  path : String := "/ws"
  pollTimeout : Int := 25000000000
  sessionTimeout : Int := 60000000000
  /-- New sessions per second; zero means no limit. -/
  handshakeRate : Float := 0.0
  handshakeBurst : Int := 10
  bufferSize : Int := 1024
  compression : Bool := false
  /-- Relay each message to all clients instead of sending it back. -/
  broadcast : Bool := false
  deriving Inhabited

/-- Settings of the client. -/
structure ClientConfig where
  url : String := "ws://localhost:8080/ws"
  protocol : String := ""
  timeout : Int := 60000000000
  requeueOnFailure : Bool := false
  /-- Open a framed connection instead of emulating one. -/
  native : Bool := false
  deriving Inhabited

/-- Settings of the log. -/
structure LogConfig where
  level : String := "info"
  json : Bool := false
  file : String := ""
  maxSizeMB : Int := 10
  maxBackups : Int := 3
  deriving Inhabited

/-- A configuration. -/
structure Config where
  server : ServerConfig := {}
  client : ClientConfig := {}
  log : LogConfig := {}
  deriving Inhabited

namespace Config

/-- Settings that are not given. -/
def default : Config := {}

/-- A rule that a configuration breaks. -/
inductive Fault where
  | path (given : String)
  | pollTimeout
  | sessionTimeout
  | handshake
  | bufferSize
  | clientTimeout
  /-- A drain may be held for the whole poll timeout, so the client has to wait longer. -/
  | clientTooShort (client poll : Int)
  | logLevel (cause : String)
  deriving DecidableEq, Inhabited

/-- Wording of a broken rule. -/
def Fault.message : Fault → String
  | .path given => "server.path must start with /, got " ++ Text.quote given
  | .pollTimeout => "server.poll_timeout must be positive"
  | .sessionTimeout => "server.session_timeout must exceed server.poll_timeout"
  | .handshake => "server.handshake_rate and server.handshake_burst must not be negative"
  | .bufferSize => "server.buffer_size must not be negative"
  | .clientTimeout => "client.timeout must be positive"
  | .clientTooShort client poll =>
    "client.timeout " ++ Duration.text client ++ " must exceed server.poll_timeout " ++
      Duration.text poll
  | .logLevel cause => "log.level: " ++ cause

/-- The first rule that a configuration breaks. -/
def fault? (c : Config) : Option Fault :=
  if c.server.path.toList.head? != some '/' then some (.path c.server.path)
  else if c.server.pollTimeout ≤ 0 then some .pollTimeout
  else if c.server.sessionTimeout ≤ c.server.pollTimeout then some .sessionTimeout
  else if c.server.handshakeRate < 0.0 || c.server.handshakeBurst < 0 then some .handshake
  else if c.server.bufferSize < 0 then some .bufferSize
  else if c.client.timeout ≤ 0 then some .clientTimeout
  else if c.client.timeout ≤ c.server.pollTimeout then
    some (.clientTooShort c.client.timeout c.server.pollTimeout)
  else
    match Log.Level.parse c.log.level with
    | .ok _ => none
    | .error cause => some (.logLevel cause)

/-- The configuration, if it keeps all rules. -/
def validate (c : Config) : Except Fault Config :=
  match c.fault? with
  | some f => .error f
  | none => .ok c

end Config

end PollSocket
