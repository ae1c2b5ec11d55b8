import PollSocket.Socket.Step
import PollSocket.Total

set_option autoImplicit false

/-!
# Driving sockets

What the program around the sockets can do: create a socket, send and close, exchange handlers,
complete calls, and run the pending tasks. Tasks do not add completions, every handler script is
finite, and a socket closes once, so a run comes to its end; `World.budget` bounds its steps.
-/

namespace PollSocket.Socket

/-- What a new socket is to be. -/
structure Options where
  address : String
  protocol : Option String := none
  requeue : Bool := false
  ownLog : Bool := true
  handlers : Handlers := {}

namespace World

/-- Steps until the agenda is empty, `fuel` of them at most. -/
def finish : Nat → World → World
  | 0, w => w
  | fuel + 1, w => if w.agenda.isEmpty then w else finish fuel w.step

/-- Number of acts that a queued task brings along. -/
def Task.scriptSize : Task → Nat
  | .handle _ _ script => sizeOfHandler script
  | _ => 0

/-- Number of handler calls that a queued task can cause, besides closing. -/
def Task.callSize : Task → Nat
  | .succeed _ body => 2 * body.length + 6
  | .fail _ => 6
  | _ => 0

/-- Bound on the steps of a run: tasks and calls of handlers, times the acts of all scripts. -/
def budget (w : World) : Nat :=
  let acts := total (fun x => x.handlers.size) w.sockets + total Task.scriptSize w.loop.queue
  let calls := total Task.callSize w.loop.queue + w.sockets.length
  8 * (w.loop.queue.length + (calls + 1) * (acts + 2) + 2)

/-- Runs the pending tasks; `ran` of the result is their number. -/
def runPending (w : World) : World := finish w.budget { w with agenda := [.run 0 none] }

/-- Outcome of posting a task. -/
def posted (w : World) (t : Task) : World × Except Failure Unit :=
  let (w, accepted) := w.post t
  (w, if accepted then .ok () else .error .loopClosed)

/-- Creates a socket and posts its handshake. -/
def create (w : World) (o : Options) : World :=
  let s := w.sockets.length
  let protocol := match o.protocol with
    | none => defaultProtocol
    | some p => if p.isEmpty then defaultProtocol else p
  let x : Socket :=
    { url := httpUrl o.address, protocol, requeue := o.requeue, ownLog := o.ownLog,
      handlers := o.handlers }
  let (w, accepted) := { w with sockets := w.sockets ++ [x] }.post (.establish s)
  if accepted then w else w.log s .warn "event loop closed before handshake" []

/-- The newest call that nobody has answered. -/
def newestOpenCall? (w : World) : Option Nat :=
  (List.range w.calls.length).reverse.find? fun i =>
    match w.calls[i]? with
    | some c => !c.answered
    | none => false

/-- Answers a call by the task `t`; says whether the loop accepted it. -/
def answer (w : World) (call : Nat) (t : Task) : World × Bool :=
  { w with calls := w.calls.modify call fun c => { c with answered := true } }.post t

end World

end PollSocket.Socket
