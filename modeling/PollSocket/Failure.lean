set_option autoImplicit false

/-!
# Causes of failure

A failure is a cause; `Failure.message` is the one place that words it. A value thrown by a
consumer's handler is kept as it is, so that the failure made of it can be told from others.
-/

namespace PollSocket

/-- A value thrown by a handler. -/
inductive Thrown where
  | text (s : String)
  | number (n : Int)
  | truth (b : Bool)
  | words (ws : List String)
  /-- An error with the given message. -/
  | failure (message : String)
  | nothing
  deriving DecidableEq, Inhabited

/-- How a thrown value is shown. -/
def Thrown.describe : Thrown → String
  | .text s => s
  | .number n => toString n
  | .truth b => if b then "true" else "false"
  | .words ws => "[" ++ " ".intercalate ws ++ "]"
  | .failure m => m
  | .nothing => "<nil>"

/-- What a handler throws that throws nothing: an error that says so. -/
def Thrown.ofNothing : Thrown :=
  .failure "runtime error: panic called with nil argument"

/-- What is wrong with the body of a response. -/
inductive Malformed where
  /-- It is no JSON text, or its parts have other types than expected. -/
  | undecodable
  | noSession
  | noMessages
  deriving DecidableEq, Inhabited

/-- Wording of a malformed body. -/
def Malformed.message : Malformed → String
  | .undecodable => "<json>"
  | .noSession => "no sessionId"
  | .noMessages => "no messages"

/-- The two kinds of exchange of a socket. -/
inductive Phase where
  | handshake
  | drain
  deriving DecidableEq, Inhabited

/-- Name of a kind of exchange. -/
def Phase.name : Phase → String
  | .handshake => "handshake"
  | .drain => "drain"

/-- Where an exchange can fail. -/
inductive ExchangeStage where
  /-- The request cannot be made. -/
  | request
  /-- There is no response. -/
  | response
  /-- The response breaks off. -/
  | body
  deriving DecidableEq, Inhabited

/-- Where in the code an exchange fails, by its stage: a text for the log that differs from one build
to another, so whoever runs the program gives it. -/
abbrev Backtrace := ExchangeStage → String

/-- Cause of a failure. -/
inductive Failure where
  | loopClosed
  | connectionClosed
  | transportClosed
  | notConnected
  | handshakeFailed
  /-- The response of an exchange has no proper body. -/
  | malformed (phase : Phase) (reason : Malformed)
  /-- A handler threw a value. -/
  | callback (name : String) (value : Thrown)
  /-- A response outside the range of success. -/
  | status (code : Int) (status : String) (body : String)
  /-- The caller gave up. -/
  | cancelled
  /-- The caller gave up while a connection was being opened. -/
  | dialCancelled
  /-- The time ran out. -/
  | deadline
  /-- The outbound queue of a session has no room. -/
  | queueFull (session : String)
  /-- The send buffer of a framed connection has no room. -/
  | bufferFull
  /-- A cause that comes from elsewhere with its wording. -/
  | other (message : String)
  /-- A text that is no address. -/
  | address (message : String)
  /-- A cause, with what was being done. -/
  | context (doing : String) (cause : Failure)
  /-- The cause of a failed exchange, with what was being done. -/
  | exchange (stage : ExchangeStage) (doing : String) (cause : Failure)
  deriving DecidableEq, Inhabited

/-- Wording of a failed status. -/
def statusMessage (status body : String) : String :=
  if body.isEmpty then "exchange failed: " ++ status
  else "exchange failed: " ++ status ++ " - " ++ body

/-- Wording of a failure. -/
def Failure.message : Failure → String
  | .loopClosed => "event loop closed"
  | .connectionClosed => "connection closed"
  | .transportClosed => "transport closed"
  | .notConnected => "not connected"
  | .handshakeFailed => "handshake failed"
  | .malformed phase reason =>
    phase.name ++ ": " ++ reason.message ++ ": malformed response"
  | .callback name value => name ++ " callback panicked: " ++ value.describe
  | .status _ line body => statusMessage line body
  | .cancelled => "context canceled"
  | .dialCancelled => "operation was canceled"
  | .deadline => "context deadline exceeded"
  | .queueFull session => "session " ++ session ++ ": outbound queue full"
  | .bufferFull => "send buffer full"
  | .other m => m
  | .address m => m
  | .context doing cause => doing ++ ": " ++ cause.message
  | .exchange _ doing cause => doing ++ ": " ++ cause.message

/-- Wording of a failure in lines of pairs: the cause of a failed exchange comes first, and where it
failed last. -/
def Failure.details (trace : Backtrace) : Failure → String
  | .exchange stage doing cause => cause.message ++ "\n" ++ doing ++ trace stage
  | f => f.message

/-- The cause behind what was being done. -/
def Failure.root : Failure → Failure
  | .context _ cause => cause.root
  | .exchange _ _ cause => cause.root
  | f => f

end PollSocket
