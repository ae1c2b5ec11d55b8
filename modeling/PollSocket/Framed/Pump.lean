import PollSocket.Failure

set_option autoImplicit false

/-!
# Pumps

The server end of a framed connection has a bounded queue of messages and a pump that writes them,
one frame at a time. A message that finds no room, and a frame that cannot be written, ask for the
connection to be closed. Closing stops the pump, waits until it is gone and then writes the frame
that takes leave. Each step of the pump, of a writer and of a closer is a step of its own, so that
they interleave freely.
-/

namespace PollSocket.Framed

/-- A frame on the connection. -/
inductive Frame where
  | text (message : String)
  /-- The frame that takes leave. -/
  | leave
  deriving DecidableEq, Inhabited

/-- What the pump is at. -/
inductive Stage where
  /-- It waits for a message or for the end. -/
  | idle
  /-- It is writing a frame. -/
  | writing (message : String)
  /-- It has returned. -/
  | gone
  deriving DecidableEq, Inhabited

/-- How far closing is. -/
inductive Closing where
  | notBegun
  /-- It waits for the pump to return. -/
  | waiting
  | finished
  deriving DecidableEq, Inhabited

/-- A pump with its queue. -/
structure Pump where
  /-- Number of messages that the queue holds. -/
  capacity : Nat := 100
  queue : List String := []
  closed : Bool := false
  stage : Stage := .idle
  closing : Closing := .notBegun
  /-- Closes that were asked for and have not begun. -/
  asked : Nat := 0
  /-- Messages that were taken, in order. -/
  accepted : List String := []
  /-- Frames that were written, in order. -/
  written : List Frame := []
  deriving DecidableEq, Inhabited

namespace Pump

/-- There is room for a message: a place in the queue, or a pump that waits for one. -/
def hasRoom (p : Pump) : Bool :=
  p.queue.length < p.capacity || (p.stage = .idle && p.queue.isEmpty)

/-- Give a message to the pump. -/
def write (p : Pump) (message : String) : Pump × Except Failure Unit :=
  if p.closed then (p, .error .transportClosed)
  else if p.hasRoom then
    ({ p with queue := p.queue ++ [message], accepted := p.accepted ++ [message] }, .ok ())
  else ({ p with asked := p.asked + 1 }, .error .bufferFull)

/-- The pump takes a message from the queue. -/
def take? (p : Pump) : Option Pump :=
  match p.stage, p.queue with
  | .idle, m :: rest => some { p with stage := .writing m, queue := rest }
  | _, _ => none

/-- The pump sees that the connection is closed. -/
def stop? (p : Pump) : Option Pump :=
  if p.stage = .idle && p.closed then some { p with stage := .gone } else none

/-- The pump's frame is written. -/
def wrote? (p : Pump) : Option Pump :=
  match p.stage with
  | .writing m => some { p with stage := .idle, written := p.written ++ [.text m] }
  | _ => none

/-- The pump's frame cannot be written. -/
def broke? (p : Pump) : Option Pump :=
  match p.stage with
  | .writing _ => some { p with stage := .gone, asked := p.asked + 1 }
  | _ => none

/-- Begin to close, unless that was done before. -/
def close (p : Pump) : Pump :=
  if p.closed then p else { p with closed := true, closing := .waiting }

/-- A close that was asked for begins. -/
def closeAsked? (p : Pump) : Option Pump :=
  if 0 < p.asked then some { p with asked := p.asked - 1 }.close else none

/-- The pump is gone, and the closer goes on: with its frame, if that can be written. -/
def leave? (p : Pump) (writable : Bool) : Option Pump :=
  if p.closing = .waiting && p.stage = .gone then
    some { p with
      closing := .finished
      written := if writable then p.written ++ [.leave] else p.written }
  else none

/-- A step. -/
inductive Event where
  | write (message : String)
  | take
  | stop
  | wrote
  | broke
  | close
  | closeAsked
  | leave (writable : Bool)
  deriving DecidableEq, Inhabited

/-- The pump after a step, if the step is possible. -/
def step? (p : Pump) : Event → Option Pump
  | .write m => some (p.write m).1
  | .take => p.take?
  | .stop => p.stop?
  | .wrote => p.wrote?
  | .broke => p.broke?
  | .close => some p.close
  | .closeAsked => p.closeAsked?
  | .leave writable => p.leave? writable

/-- The pump after steps, those left out that are not possible. -/
def run (p : Pump) : List Event → Pump
  | [] => p
  | e :: rest => ((p.step? e).getD p).run rest

end Pump

end PollSocket.Framed
