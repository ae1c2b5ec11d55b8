import PollSocket.Failure

set_option autoImplicit false

/-!
# Scripted handlers

A socket calls its consumer at four occasions. What a consumer does then is a finite script of acts
on the socket, on its handlers and on the loop.
-/

namespace PollSocket.Socket

/-- The occasions at which a socket calls its consumer. -/
inductive Slot where
  | onOpen
  | onMessage
  | onError
  | onClose
  deriving DecidableEq, Inhabited

/-- Name of an occasion. -/
def Slot.name : Slot → String
  | .onOpen => "open"
  | .onMessage => "message"
  | .onError => "error"
  | .onClose => "close"

/-- One act of a handler. -/
inductive Act where
  /-- Sends the text, with `echo` followed by the data of the occasion. -/
  | send (text : String) (echo : Bool)
  | close
  | closeWhenDrained
  | closeLoop
  | throw (value : Thrown)
  /-- Gives an occasion another script. -/
  | replace (slot : Slot) (script : List Act)
  /-- Leaves an occasion without a handler. -/
  | remove (slot : Slot)
  /-- Acts only if the data of the occasion is `data`. -/
  | whenData (data : String) (script : List Act)
  /-- Runs the pending tasks of the loop. -/
  | runLoop
  /-- Reports the state of the socket. -/
  | report
  deriving Inhabited

/-- What a handler does. -/
abbrev Script := List Act

mutual

/-- Number of acts in an act, scripts inside it included. -/
def Act.size : Act → Nat
  | .replace _ script => 1 + sizeOfScript script
  | .whenData _ script => 1 + sizeOfScript script
  | _ => 1

/-- Number of acts in a script, scripts inside it included. -/
def sizeOfScript : List Act → Nat
  | [] => 0
  | a :: more => a.size + sizeOfScript more

end

/-- The handlers of a socket; an occasion may have none. -/
structure Handlers where
  onOpen : Option Script := none
  onMessage : Option Script := none
  onError : Option Script := none
  onClose : Option Script := none

/-- Handler of an occasion. -/
def Handlers.get (h : Handlers) : Slot → Option Script
  | .onOpen => h.onOpen
  | .onMessage => h.onMessage
  | .onError => h.onError
  | .onClose => h.onClose

/-- Gives an occasion a handler, or none. -/
def Handlers.set (h : Handlers) (slot : Slot) (script : Option Script) : Handlers :=
  match slot with
  | .onOpen => { h with onOpen := script }
  | .onMessage => { h with onMessage := script }
  | .onError => { h with onError := script }
  | .onClose => { h with onClose := script }

/-- Number of acts of an occasion. -/
def sizeOfHandler : Option Script → Nat
  | none => 0
  | some script => sizeOfScript script

/-- Number of acts in all handlers. -/
def Handlers.size (h : Handlers) : Nat :=
  sizeOfHandler h.onOpen + sizeOfHandler h.onMessage + sizeOfHandler h.onError +
    sizeOfHandler h.onClose

end PollSocket.Socket
