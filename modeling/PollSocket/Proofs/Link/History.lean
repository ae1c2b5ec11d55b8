import PollSocket.Exchange.Request
import PollSocket.Proofs.Server.History
import PollSocket.Proofs.Socket.History

set_option autoImplicit false

/-!
# A socket and a server

One socket talks to a server over a network. The network takes the request of every call to the server
once at most and at any time, even when the call has been reported as failed; it takes a response back
only when the thread that served the request has come to its end; and it may report any call as failed.
Besides, the program around the socket, its handlers, the server and other clients make whatever moves
they like. A move that is not possible changes nothing.

`State.heard` follows messages through the network by their positions among those that the socket was
asked to send: it has one entry for every message that the handlers of the server were told for a
request of the socket, in the order of telling.
-/

namespace PollSocket.Link

/-- What can happen next. -/
inductive Move where
  /-- The program around the socket or one of its handlers does something, or the loop goes on. -/
  | client (m : Socket.Move)
  /-- The server goes on, or somebody else uses it. -/
  | server (m : Server.Move)
  /-- The request of a call reaches the server. -/
  | request (call : Nat)
  /-- The response to a call reaches the socket. -/
  | reply (call : Nat)
  /-- A call is reported as failed: its request or its response is lost, or late. -/
  | lose (call : Nat)

/-- The request of an exchange as the server sees it. -/
def received (r : PollSocket.Request) : Server.Request := ⟨r.method, r.header, r.body⟩

/-- What the network reports of a call when the thread that serves it has come to its end. A thread that
a handler has thrown out of has no response. -/
def report? (call : Nat) (x : Socket.Call) (y : Server.Thread) : Option Socket.Move :=
  match x.exchange.request {} with
  | .error _ => none
  | .ok r =>
    if y.agenda.isEmpty && y.thrown.isNone then
      match (Reply.response y.answer.status "" y.answer.body none).result r x.exchange.url with
      | .ok body => some (.succeed call body)
      | .error _ => some (.fail call)
    else none

/-- A socket and a server with what is between them. -/
structure State where
  client : Socket.History
  server : Server.History
  /-- Calls whose requests have reached the server, and the threads that serve them. -/
  errands : List (Nat × Nat) := []
  /-- Positions of the messages that handlers of the server were told. -/
  heard : List Nat := []

namespace State

/-- The thread serves a request of the socket. -/
def serves (l : State) (t : Nat) : Bool := l.errands.any fun e => e.2 == t

/-- Position of the next message that a thread tells the handlers of, if it serves the socket. -/
def position? (l : State) (t : Nat) : Option Nat :=
  match l.errands.find? fun e => e.2 == t with
  | some (call, _) => (l.client.carried call)[(l.server.toldBy t).length]?
  | none => none

/-- Connections and data that handlers of the server were told for requests of the socket. -/
def seen (l : State) : List (Nat × String) :=
  l.server.told.filterMap fun e => if l.serves e.1 then some e.2 else none

/-- The state after a move of the server. -/
def afterServer (l : State) (m : Server.Move) : State :=
  let s := l.server.after m
  { l with
    server := s
    heard := l.heard ++ (s.told.drop l.server.told.length).flatMap fun e => (l.position? e.1).toList }

/-- The state after a move. -/
def after (l : State) : Move → State
  | .client m => if m.isLocal then { l with client := l.client.after m } else l
  | .server m => l.afterServer m
  | .request call =>
    match l.client.world.calls[call]? with
    | none => l
    | some x =>
      match x.exchange.request {} with
      | .error _ => l
      | .ok r =>
        if l.errands.any fun e => e.1 == call then l
        else
          { l with
            server := l.server.after (.request (received r))
            errands := l.errands ++ [(call, l.server.world.threads.length)] }
  | .reply call =>
    match l.client.world.calls[call]?, (l.errands.lookup call).bind (l.server.world.threads[·]?) with
    | some x, some y =>
      match report? call x y with
      | some m => { l with client := l.client.after m }
      | none => l
    | _, _ => l
  | .lose call => { l with client := l.client.after (.fail call) }

/-- A new socket and a server. -/
def start (o : Socket.Options) (s : Server.History) : State :=
  { client := .run [.create o], server := s }

end State

/-- The state after a run. -/
def run (o : Socket.Options) (s : Server.History) (moves : List Move) : State :=
  moves.foldl State.after (.start o s)

end PollSocket.Link
