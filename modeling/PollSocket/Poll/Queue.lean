import PollSocket.Failure

set_option autoImplicit false

/-!
# Outbound queues

Messages for a client wait in a queue until its next drain takes them. A writer leaves a token for
a drain that is held; the token may outlive the messages it was left for. Times and durations are
numbers of nanoseconds.
-/

namespace PollSocket.Poll

/-- Queue of the messages for one session. -/
structure Queue where
  session : String
  /-- A positive limit bounds the number of messages. -/
  limit : Int
  /-- After a positive time without a drain the session is expired. -/
  patience : Int
  pending : List String := []
  /-- A writer has left a token. -/
  token : Bool := false
  closed : Bool := false
  lastActivity : Int
  deriving DecidableEq, Inhabited

/-- Time after which a session without drains is expired, unless another is set. -/
def defaultPatience : Int := 60000000000

/-- Number of messages a queue holds, unless another is set. -/
def defaultLimit : Int := 1024

namespace Queue

/-- No further message fits. -/
def full (q : Queue) : Bool := 0 < q.limit && q.limit ≤ q.pending.length

/-- Queues a message and leaves a token. -/
def write (q : Queue) (message : String) : Queue × Except Failure Unit :=
  if q.closed then (q, .error .transportClosed)
  else if q.full then (q, .error (.queueFull q.session))
  else ({ q with pending := q.pending ++ [message], token := true }, .ok ())

/-- Takes all messages. -/
def takePending (q : Queue) : Queue × List String := ({ q with pending := [] }, q.pending)

/-- Notes that a drain is at work. -/
def touch (q : Queue) (now : Int) : Queue := { q with lastActivity := now }

/-- Refuses messages from now on; what is queued can still be taken. -/
def close (q : Queue) : Queue := { q with closed := true }

/-- Closed, or without a drain for too long. -/
def expired (q : Queue) (now : Int) : Bool :=
  q.closed || (0 < q.patience && q.patience < now - q.lastActivity)

end Queue

/-- State of a take: it has its result, where `none` is that of a caller who gave up, or it waits for
a message until the deadline. -/
inductive Take where
  | done (result : Option (List String))
  | waiting (deadline : Int)
  deriving DecidableEq, Inhabited

/-- Why a take that waits looks again. -/
inductive Wake where
  | token
  | closed
  | deadline
  | cancelled
  deriving DecidableEq

namespace Queue

/-- Starts to take messages: with none queued and time to wait, the take waits. -/
def startTake (q : Queue) (now : Int) (cancelled : Bool) (wait : Int) : Queue × Take :=
  let q := q.touch now
  if cancelled then (q, .done none)
  else
    let (q, messages) := q.takePending
    if messages.isEmpty && 0 < wait then (q, .waiting (now + wait)) else (q, .done (some messages))

/-- The reason to look again holds. -/
def wakesFor (q : Queue) (now : Int) (cancelled : Bool) (deadline : Int) : Wake → Bool
  | .token => q.token
  | .closed => q.closed
  | .deadline => deadline ≤ now
  | .cancelled => cancelled

/-- The reason for which a waiting take looks again: the preferred one if it holds, else the first of
those that do. -/
def reason? (q : Queue) (now : Int) (cancelled : Bool) (deadline : Int) (preferred : Wake) :
    Option Wake :=
  [preferred, .token, .closed, .deadline, .cancelled].find? (q.wakesFor now cancelled deadline)

/-- Looks again. A token may be left from before; a caller who gave up leaves the messages. -/
def resumeTake (q : Queue) (now : Int) (cancelled : Bool) (deadline : Int) (preferred : Wake) :
    Queue × Take :=
  match q.reason? now cancelled deadline preferred with
  | none => (q, .waiting deadline)
  | some .token =>
    let (q, messages) := { q with token := false }.takePending
    if messages.isEmpty then (q, .waiting deadline)
    else (q.touch now, .done (some messages))
  | some .cancelled => (q.touch now, .done none)
  | some _ =>
    let (q, messages) := q.takePending
    (q.touch now, .done (some messages))

/-- Looks again until the take is done or has to wait: a token is used up first, at most once. -/
def settleTake (q : Queue) (now : Int) (cancelled : Bool) (deadline : Int) : Queue × Take :=
  let (q, state) := q.resumeTake now cancelled deadline .token
  match state with
  | .done result => (q, .done result)
  | .waiting deadline => q.resumeTake now cancelled deadline .token

end Queue

end PollSocket.Poll
