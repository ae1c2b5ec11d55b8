import PollSocket.Poll.Queue

set_option autoImplicit false

/-!
# A queue under a clock

One queue with a clock, and at most one take that is held while other things happen. The clock does
not pass the deadline of that take without ending it.
-/

namespace PollSocket.Poll

/-- A take that is held. -/
structure Held where
  cancelled : Bool := false
  state : Take

/-- A queue with its clock. -/
structure Desk where
  protocol : String
  queue : Queue
  now : Int := 0
  held : Option Held := none

namespace Desk

/-- Lets the held take go on if it can. -/
def settle (d : Desk) : Desk :=
  match d.held with
  | none => d
  | some h =>
    match h.state with
    | .done _ => d
    | .waiting deadline =>
      let (queue, state) := d.queue.settleTake d.now h.cancelled deadline
      { d with queue, held := some { h with state } }

/-- Moves the clock to a later time, past the deadline of the held take. -/
def advance (d : Desk) (target : Int) : Desk :=
  match d.held with
  | some { state := .waiting deadline, .. } =>
    if d.now < deadline ∧ deadline ≤ target then
      { { d with now := deadline }.settle with now := target }
    else { d with now := target }.settle
  | _ => { d with now := target }

/-- Queues a message. -/
def write (d : Desk) (message : String) : Desk × Except Failure Unit :=
  let (queue, r) := d.queue.write message
  ({ d with queue }.settle, r)

/-- Closes the queue. -/
def close (d : Desk) : Desk := { d with queue := d.queue.close }.settle

/-- Takes messages, waiting if need be. -/
def take (d : Desk) (cancelled : Bool) (wait : Int) : Desk × Option (List String) :=
  let (queue, state) := d.queue.startTake d.now cancelled wait
  let d := { d with queue }
  match state with
  | .done result => (d, result)
  | .waiting deadline =>
    let (queue, state) := d.queue.settleTake d.now cancelled deadline
    let d := { d with queue }
    match state with
    | .done result => (d, result)
    | .waiting deadline =>
      let d := d.advance deadline
      let (queue, state) := d.queue.settleTake d.now cancelled deadline
      match state with
      | .done result => ({ d with queue }, result)
      | .waiting _ => ({ d with queue }, none)

/-- Starts a take that is held if it has to wait. -/
def hold (d : Desk) (wait : Int) : Desk :=
  let (queue, state) := d.queue.startTake d.now false wait
  let held : Held := { state }
  { d with queue, held := some held }.settle

/-- The caller of the held take gives up. -/
def cancel (d : Desk) : Desk :=
  { d with held := d.held.map fun (h : Held) => { h with cancelled := true } }.settle

/-- Result of the held take, for which the clock moves on if need be. -/
def await (d : Desk) : Desk × Option (List String) :=
  let d := match d.held with
    | some { state := .waiting deadline, .. } => d.advance (max d.now deadline)
    | _ => d
  match d.held with
  | some { state := .done result, .. } => ({ d with held := none }, result)
  | _ => (d, none)

end Desk

end PollSocket.Poll
