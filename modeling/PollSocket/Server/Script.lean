import PollSocket.Failure

set_option autoImplicit false

/-!
# Scripted reactions

The server tells its handlers when a session begins, when a message comes and when the session ends.
A scripted handler acts on the connection, on other connections and on the server.
-/

namespace PollSocket.Server

/-- One act of a handler. With `echo` the text is followed by the data of the event. -/
inductive Act where
  | send (text : String) (echo : Bool)
  | sendTo (id : String) (text : String) (echo : Bool)
  | broadcast (text : String) (echo : Bool)
  | close
  | count
  | info
  | get (id : String)
  /-- Registers a handler. -/
  | handle (event : String) (script : List Act)
  /-- Acts only if the data of the event is `data`. -/
  | whenData (data : String) (script : List Act)
  | throw (value : Thrown)
  deriving Inhabited

/-- What a handler does. -/
abbrev Script := List Act

mutual

/-- Number of acts in an act, scripts inside it included. -/
def Act.size : Act → Nat
  | .handle _ script => 1 + sizeOfScript script
  | .whenData _ script => 1 + sizeOfScript script
  | _ => 1

/-- Number of acts in a script, scripts inside it included. -/
def sizeOfScript : List Act → Nat
  | [] => 0
  | a :: more => a.size + sizeOfScript more

end

mutual

/-- How deep registrations are nested in an act. -/
def Act.depth : Act → Nat
  | .handle _ script => 1 + depthOfScript script
  | .whenData _ script => depthOfScript script
  | _ => 0

/-- How deep registrations are nested in a script. -/
def depthOfScript : List Act → Nat
  | [] => 0
  | a :: more => max a.depth (depthOfScript more)

end

/-- What happens at an event. -/
inductive Reaction where
  /-- The handler with a number performs a script. -/
  | script (number : Nat) (acts : Script)
  /-- A new client is recorded. -/
  | welcome
  /-- A client that left is recorded. -/
  | farewell
  /-- A message goes back to its sender. -/
  | echo
  /-- A message goes to all clients. -/
  | relay

/-- A registered handler. -/
structure Handler where
  event : String
  reaction : Reaction

/-- Number of acts of a handler. -/
def Handler.size (h : Handler) : Nat :=
  match h.reaction with
  | .script _ acts => sizeOfScript acts + 1
  | _ => 1

/-- How deep registrations are nested in a handler. -/
def Handler.depth (h : Handler) : Nat :=
  match h.reaction with
  | .script _ acts => depthOfScript acts
  | _ => 0

end PollSocket.Server
