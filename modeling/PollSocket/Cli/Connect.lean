import PollSocket.Cli.Lines
import PollSocket.Config.Basic
import PollSocket.Framed.Client
import PollSocket.Socket.Run

set_option autoImplicit false

/-!
# Connecting

The lines of standard input are sent as messages over one socket, and messages that come in are
printed. When the input ends, the socket is closed as soon as all lines are delivered. A reader feeds
the socket's loop while the loop runs; each of their steps, and each result of an exchange, is an
event of its own. When the socket has closed or its caller gives up, the loop comes to the end of its
run, and the session is over.
-/

namespace PollSocket.Cli

/-- Why a session ends. -/
inductive Ending where
  /-- The socket has closed, or the caller gave up. -/
  | cancelled
  | deadline
  deriving DecidableEq, Inhabited

/-- A session of a client. -/
structure Session where
  url : String
  world : Socket.World
  /-- Lines that the reader has not sent. -/
  unread : List String
  /-- The reader is at work. -/
  reading : Bool := true
  ending : Option Ending := none
  /-- Messages that were printed. -/
  printed : List String := []
  /-- Records for the log. -/
  records : List Log.Record := []

namespace Session

/-- The socket of a session. All that happens to it is noted, and its handlers do nothing else. -/
def options (c : ClientConfig) : Socket.Options where
  address := c.url
  protocol := some c.protocol
  requeue := c.requeueOnFailure
  ownLog := false
  handlers := { onOpen := some [], onMessage := some [], onError := some [], onClose := some [] }

/-- A session before its first event. -/
def start (c : ClientConfig) (input : String) : Session where
  url := c.url
  world := ({} : Socket.World).create (options c)
  unread := readLines input

/-- A record of this part of the program. -/
def record (level : Log.Level) (message : String) (attrs : List (String × Log.Value)) :
    Log.Record :=
  { level, message, attrs := ("component", .text "connect") :: attrs }

/-- What follows from something that happened on the loop. -/
def observe (s : Session) : Socket.Note → Session
  | .called _ .opened =>
    { s with records := s.records ++ [record .info "connected" [("url", .text s.url)]] }
  | .called _ (.message data) => { s with printed := s.printed ++ [data] }
  | .called _ (.error f) =>
    { s with records := s.records ++ [record .error "socket error" [("error", .failure f)]] }
  | .called _ .closed => { s with ending := s.ending <|> some .cancelled }
  | .issued call =>
    match s.world.calls[call]? with
    | none => s
    | some c =>
      match c.exchange.request {} with
      | .error _ => s
      | .ok _ =>
        { s with records := s.records ++
            [{ level := .debug, message := c.exchange.sentLine }] }
  | .logged _ r => { s with records := s.records ++ [r] }
  | _ => s

/-- The reader sends a line, or asks for the socket to be closed if there is none left. It gives up
once the loop takes nothing more. -/
def read (s : Session) : Session :=
  if !s.reading then s
  else
    match s.unread with
    | line :: rest =>
      match s.world.posted (.send 0 line) with
      | (world, .ok _) => { s with world, unread := rest }
      | (world, .error _) => { s with world, reading := false }
    | [] => { s with world := (s.world.post (.closeWhenDrained 0)).1, reading := false }

/-- The loop goes on: it does what is next, or starts to run the tasks that wait. -/
def turn (s : Session) : Session :=
  let world :=
    if s.world.agenda.isEmpty then { s.world with agenda := [.run 0 none] } else s.world.step
  (world.journal.drop s.world.journal.length).foldl observe { s with world }

/-- The result of an exchange comes in. -/
def answer (s : Session) (call : Nat) (result : Except Failure (List UInt8)) : Session :=
  match s.world.calls[call]? with
  | none => s
  | some c =>
    if c.answered then s
    else
      match result with
      | .ok body => { s with world := (s.world.answer call (.succeed call body)).1 }
      | .error f => { s with world := ({ s.world with fault := f }.answer call (.fail call)).1 }

/-- The caller gives up. -/
def stop (s : Session) (why : Ending) : Session := { s with ending := s.ending <|> some why }

/-- One event of a session. -/
inductive Event where
  | read
  | turn
  | answer (call : Nat) (result : Except Failure (List UInt8))
  | stop (why : Ending)

/-- The session is over: there is a reason to end it, and the loop has come to the end of its run. -/
def ended (s : Session) : Bool := s.ending.isSome && s.world.agenda.isEmpty

/-- The session after an event; once it is over nothing happens any more. -/
def step (s : Session) (e : Event) : Session :=
  if s.ended then s
  else
    match e with
    | .read => s.read
    | .turn => s.turn
    | .answer call result => s.answer call result
    | .stop why => s.stop why

/-- What the session comes to, once it is over. A socket that never opened counts as a failure,
whatever ended it. -/
def outcome (s : Session) : Except Failure Unit :=
  if (s.world.socket 0).state = .connecting then .error .handshakeFailed
  else
    match s.ending with
    | some .deadline => .error .deadline
    | _ => .ok ()

/-- Result of an exchange over a network that sends no request. -/
def resultOver (net : Network) (x : Exchange) : Option (Except Failure (List UInt8)) :=
  match x.request {} with
  | .error f => some (.error f)
  | .ok r => (net.failure? r).map fun f => .error (r.failure x.url f)

/-- Answer the calls that a network does not let through. -/
def answerAll (net : Network) (s : Session) : Session :=
  (List.range s.world.calls.length).foldl (fun s i =>
    match (s.world.calls[i]?).bind fun c => resultOver net c.exchange with
    | some result => s.step (.answer i result)
    | none => s) s

/-- The loop runs the tasks that wait, to the end. -/
def runTasks (s : Session) : Session :=
  (List.range (s.world.budget + 1)).foldl (fun s _ => s.step .turn) s

/-- A session over a network: the reader sends all lines, and then runs of the loop and answers of
the network alternate, `fuel` times at most. -/
def run (net : Network) (fuel : Nat) (s : Session) : Session :=
  let s := (List.range (s.unread.length + 1)).foldl (fun s _ => s.step .read) s
  (List.range fuel).foldl (fun s _ => answerAll net s.runTasks) s

end Session

/-- Connect with an emulated socket. -/
def connectEmulated (net : Network) (c : ClientConfig) (input : String) (cancelled : Bool) :
    Session :=
  let s := Session.start c input
  if cancelled then s.runTasks.step (.stop .cancelled) else s.run net 3

/-- Connect with a framed connection. -/
def connectNative (net : Network) (c : ClientConfig) (cancelled : Bool) : Except Failure Unit :=
  ((Framed.Client.new c.url c.protocol {}).connect net cancelled).2

end PollSocket.Cli
