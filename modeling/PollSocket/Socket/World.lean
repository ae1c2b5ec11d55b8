import PollSocket.Log.Record
import PollSocket.Loop.Basic
import PollSocket.Session
import PollSocket.Socket.Script
import PollSocket.Wire

set_option autoImplicit false

/-!
# Sockets on a loop

A world is one loop, the sockets on it, the exchanges they have issued, and the journal of what an
observer can see. Sockets and calls are named by their positions.

What is being done stands on the agenda, innermost first: the rest of a handler above the rest of
the task that called it, and a run inside a handler above both. No task is being executed exactly
when the agenda is empty.
-/

namespace PollSocket

/-- A socket. -/
structure Socket where
  url : String := ""
  protocol : String := defaultProtocol
  /-- The batch of a failed drain goes back to the front of the queue. -/
  requeue : Bool := false
  /-- Records go to the logger that was given, not to the process-wide one. -/
  ownLog : Bool := true
  state : ReadyState := .connecting
  session : SessionId := .unassigned
  /-- Messages that wait for a drain. -/
  pending : List String := []
  /-- The call in flight. -/
  inflight : Option Nat := none
  /-- Number of messages that the last drain carries. -/
  outbound : Nat := 0
  /-- The socket closes once it is drained. -/
  closing : Bool := false
  handlers : Socket.Handlers := {}
  deriving Inhabited

namespace Socket

/-- An issued exchange. -/
structure Call where
  owner : Nat
  exchange : Exchange
  /-- Messages of a drain; a handshake has none. -/
  batch : Option (List String)
  aborted : Bool := false
  /-- A completion has been posted or refused. -/
  answered : Bool := false

/-- Tasks of the loop. -/
inductive Task where
  | establish (s : Nat)
  | send (s : Nat) (text : String)
  | close (s : Nat)
  | closeWhenDrained (s : Nat)
  | handle (s : Nat) (slot : Slot) (script : Option Script)
  /-- A call has succeeded. -/
  | succeed (call : Nat) (body : List UInt8)
  /-- A call has failed; the network says why when the task is executed. -/
  | fail (call : Nat)

/-- Occasions at which the consumer is called. -/
inductive Event where
  | opened
  | message (data : String)
  | error (cause : Failure)
  | closed
  deriving DecidableEq, Inhabited

/-- Handler of an occasion. -/
def Event.slot : Event → Slot
  | .opened => .onOpen
  | .message _ => .onMessage
  | .error _ => .onError
  | .closed => .onClose

/-- Data a handler gets. -/
def Event.data : Event → String
  | .opened => ""
  | .message data => data
  | .error cause => cause.message
  | .closed => ""

/-- What an observer sees. -/
inductive Note where
  /-- An exchange was issued. -/
  | issued (call : Nat)
  /-- A call was aborted for the first time. -/
  | aborted (call : Nat)
  /-- A handler was called. -/
  | called (s : Nat) (event : Event)
  /-- A handler's act was refused. -/
  | sendRefused (s : Nat) (cause : Failure)
  | closeRefused (s : Nat) (cause : Failure)
  | closeWhenDrainedRefused (s : Nat) (cause : Failure)
  /-- A run inside a handler took `ran` tasks. -/
  | ranInside (s : Nat) (ran : Nat)
  /-- A handler reported the state. -/
  | reported (s : Nat) (state : ReadyState) (session : SessionId)
  /-- A record for the given logger (`own`) or for the process-wide one. -/
  | logged (own : Bool) (record : Log.Record)

/-- What is left to do. -/
inductive Duty where
  /-- Go on with a run that has taken `ran` tasks, inside a handler of socket `inside`. -/
  | run (ran : Nat) (inside : Option Nat)
  /-- Call the consumer. -/
  | emit (s : Nat) (event : Event)
  /-- An act of a handler that was called with `data`. -/
  | act (s : Nat) (data : String) (a : Act)
  /-- The end of a handler: what is thrown above it is caught here. -/
  | leave (s : Nat) (event : Event)
  /-- Deliver the messages of a response. -/
  | dispatch (s : Nat) (messages : List String)
  /-- The messages of a response are delivered: give up its call and go on. -/
  | resume (s : Nat)
  /-- The socket has opened: start to drain. -/
  | begin (s : Nat)
  /-- Close a socket that is to close once drained. -/
  | closeIfClosing (s : Nat)

/-- A loop with its sockets. -/
structure World where
  loop : Loop Task := {}
  sockets : List Socket := []
  calls : List Call := []
  agenda : List Duty := []
  /-- Why calls fail at the moment. -/
  fault : Failure := .other ""
  /-- Number of tasks taken by the last run that was not inside a handler. -/
  ran : Nat := 0
  journal : List Note := []

namespace World

/-- A socket by its position. -/
def socket (w : World) (s : Nat) : Socket := w.sockets.getD s {}

/-- Changes a socket. -/
def update (w : World) (s : Nat) (f : Socket → Socket) : World :=
  { w with sockets := w.sockets.modify s f }

/-- Adds to the journal. -/
def note (w : World) (n : Note) : World := { w with journal := w.journal ++ [n] }

/-- Puts duties in front of the others. -/
def push (w : World) (duties : List Duty) : World := { w with agenda := duties ++ w.agenda }

/-- Records something about a socket. -/
def log (w : World) (s : Nat) (level : Log.Level) (message : String)
    (attrs : List (String × Log.Value)) : World :=
  let x := w.socket s
  let context : List (String × Log.Value) := [("url", .text x.url), ("protocol", .text x.protocol)]
  let context := if x.ownLog then context else ("component", .text "socket") :: context
  w.note (.logged x.ownLog { level, message, attrs := context ++ attrs })

/-- Posts a task. -/
def post (w : World) (t : Task) : World × Bool :=
  let (loop, accepted) := w.loop.post t
  ({ w with loop }, accepted)

end World

end Socket

end PollSocket
