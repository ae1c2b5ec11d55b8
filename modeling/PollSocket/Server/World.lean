import PollSocket.Log.Record
import PollSocket.Poll.Queue
import PollSocket.Server.Ids
import PollSocket.Server.Limiter
import PollSocket.Server.Script
import PollSocket.Wire

set_option autoImplicit false

/-!
# Servers

A server keeps a table of sessions, which drains name, and a table of connections, which are online.
Connections are named by their positions in the list of all that ever were.

Every request, and every operation of the program around the server, is a thread with an agenda of
its own. A thread waits when the session it drains is held by another one, or when its take has
nothing to bring. The tables, the clock and the handlers are shared.

All connections here are polled. Requests reach this world over connections that cannot be taken over,
so that a request for a framed connection is always refused (`World.refuseUpgrade`). Framed connections
are outside of it: what passes over one of them is in `Framed`, and no session, table or handler of a
`World` belongs to one.
-/

namespace PollSocket.Server

/-- One session as the server sees it. -/
structure Conn where
  id : String
  protocol : String
  connected : Bool := true
  queue : Poll.Queue
  /-- Thread that drains the session. -/
  holder : Option Nat := none
  deriving Inhabited

/-- What is set for a server. Durations are numbers of nanoseconds. -/
structure Settings where
  pollTimeout : Int := 25000000000
  sessionTimeout : Int := 60000000000
  bufferSize : Int := 1024
  /-- Records go to the logger that was given, not to the process-wide one. -/
  ownLog : Bool := true
  deriving DecidableEq, Inhabited

/-- Time between two sweeps of expired sessions. -/
def Settings.sweepInterval (s : Settings) : Int :=
  let half := Int.tdiv s.sessionTimeout 2
  let half := if half > 30000000000 then 30000000000 else half
  if half < 10000000 then 10000000 else half

/-- A request. -/
structure Request where
  method : String
  header : Header
  body : List UInt8
  deriving DecidableEq

/-- An answer. -/
structure Answer where
  status : Nat := 200
  header : Header := {}
  body : List UInt8 := []
  deriving DecidableEq

/-- What is left to do in a thread. -/
inductive Duty where
  /-- Serve a request. -/
  | serve (r : Request)
  /-- Tell the handlers of an event. -/
  | trigger (event : String) (c : Nat) (data : String)
  /-- One handler reacts. -/
  | react (event : String) (r : Reaction) (c : Nat) (data : String)
  /-- An act of the handler with a number. -/
  | act (number : Nat) (c : Nat) (data : String) (a : Act)
  /-- Answer a handshake. -/
  | greet (c : Nat)
  /-- Hold the session. -/
  | lock (c : Nat)
  /-- Tell the handlers of messages. -/
  | deliver (c : Nat) (messages : List String)
  /-- Take the messages for the client; `received` came from it. -/
  | take (c : Nat) (received : Nat)
  /-- Wait for messages. -/
  | wait (c : Nat) (received : Nat) (deadline : Int)
  /-- Answer a drain. -/
  | reply (c : Nat) (received : Nat) (messages : Option (List String))
  /-- Let go of the session. -/
  | unlock (c : Nat)
  /-- Queue a message for a connection; the outcome is that of the thread. -/
  | send (c : Nat) (text : String)
  /-- Queue a message for connections. -/
  | broadcast (cs : List Nat) (text : String)
  | close (c : Nat)
  /-- Close connections until the caller gives up. -/
  | shutdown (cs : List Nat)
  /-- Close expired connections. -/
  | expire (cs : List Nat)

/-- A thread. -/
structure Thread where
  agenda : List Duty
  /-- The caller has given up. -/
  cancelled : Bool := false
  /-- Nothing can be written to the caller any more. -/
  unwritable : Bool := false
  /-- Why a take of the thread goes on, where there are several reasons. -/
  preferred : Poll.Wake := .token
  answer : Answer := {}
  outcome : Except Failure Unit := .ok ()
  /-- A handler threw a value. -/
  thrown : Option Thrown := none

/-- What an observer sees. -/
inductive Note where
  /-- A handler was called. -/
  | called (number : Nat) (event : String) (id : String) (data : String)
  | noConn (number : Nat) (id : String)
  | sendFailed (number : Nat) (cause : Failure)
  | counted (number : Nat) (n : Nat)
  | info (number : Nat) (c : Conn)
  | got (number : Nat) (c : Option Conn)
  /-- A record for the given logger (`own`) or for the process-wide one. -/
  | logged (own : Bool) (record : Log.Record)

/-- A server with its threads. -/
structure World where
  settings : Settings := {}
  limiter : Option Limiter := none
  ids : Ids := {}
  now : Int := 0
  /-- Time of the next sweep. -/
  nextSweep : Int := 0
  /-- No sweeps any more. -/
  stopped : Bool := false
  conns : List Conn := []
  /-- Sessions by id. -/
  sessions : List (String × Nat) := []
  /-- Connections that are online, by id. -/
  online : List (String × Nat) := []
  handlers : List Handler := []
  /-- Number of scripted handlers. -/
  scripted : Nat := 0
  threads : List Thread := []
  journal : List Note := []

/-- Entry of a table with another value, at its place or at the end. -/
def putEntry (id : String) (c : Nat) : List (String × Nat) → List (String × Nat)
  | [] => [(id, c)]
  | e :: more => if e.1 == id then (id, c) :: more else e :: putEntry id c more

/-- Table without the entry of an id. -/
def dropEntry (id : String) (table : List (String × Nat)) : List (String × Nat) :=
  table.filter fun e => e.1 != id

namespace World

/-- A connection by its position. -/
def conn? (w : World) (c : Nat) : Option Conn := w.conns[c]?

/-- Changes a connection. -/
def updateConn (w : World) (c : Nat) (f : Conn → Conn) : World :=
  { w with conns := w.conns.modify c f }

/-- Changes a thread. -/
def updateThread (w : World) (t : Nat) (f : Thread → Thread) : World :=
  { w with threads := w.threads.modify t f }

/-- Puts duties in front of the others of a thread. -/
def push (w : World) (t : Nat) (duties : List Duty) : World :=
  w.updateThread t fun x => { x with agenda := duties ++ x.agenda }

/-- Adds to the journal. -/
def note (w : World) (n : Note) : World := { w with journal := w.journal ++ [n] }

/-- Records something about the server. -/
def log (w : World) (level : Log.Level) (message : String) (attrs : List (String × Log.Value)) :
    World :=
  let own := w.settings.ownLog
  let attrs := if own then attrs else ("component", .text "server") :: attrs
  w.note (.logged own { level, message, attrs })

/-- Records something for the process-wide logger at the lowest level. -/
def trace (w : World) (message : String) : World :=
  w.note (.logged false { level := .debug, message })

/-- Number of connections that are online. -/
def count (w : World) : Nat := w.online.length

/-- A connection that is online, by id. -/
def get? (w : World) (id : String) : Option Conn := (w.online.lookup id).bind w.conn?

/-- Positions of the connections that are online. -/
def onlineConns (w : World) : List Nat := w.online.map (·.2)

/-- The latest connection that had an id. -/
def seen? (w : World) (id : String) : Option Nat :=
  (List.range w.conns.length).reverse.find? fun c =>
    match w.conn? c with
    | some x => x.id == id
    | none => false

/-- Registers a handler. -/
def register (w : World) (event : String) (reaction : Reaction) : World :=
  { w with handlers := w.handlers ++ [⟨event, reaction⟩] }

/-- Registers a scripted handler under the next number. -/
def registerScript (w : World) (event : String) (acts : Script) : World :=
  { w.register event (.script w.scripted acts) with scripted := w.scripted + 1 }

end World

end PollSocket.Server
