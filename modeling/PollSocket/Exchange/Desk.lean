import PollSocket.Exchange.Request
import PollSocket.Loop.Basic

set_option autoImplicit false

/-!
# Exchanges under way

Each exchange is a call of its own. A call travels until there is a response, a failure, the end of
its time, an abort or the closing of the desk; then it has returned, and its result is handed to a
loop as a task. Running the task reports the result: a body always, a failure unless the call was
aborted.
-/

namespace PollSocket.Exchange

/-- How far a call is. -/
inductive Stage where
  | travelling
  /-- The result is there. -/
  | returned (result : Except Failure (List UInt8))
  /-- The result was handed to the loop, which took it or not. -/
  | posted (result : Except Failure (List UInt8)) (accepted : Bool)

/-- A call. -/
structure Call where
  exchange : Exchange
  /-- The request, unless it could not be made. -/
  request : Option Request
  aborted : Bool
  stage : Stage

/-- The result of a travelling call without a response. -/
def Call.give (cause : Failure) (c : Call) : Call :=
  match c.stage, c.request with
  | .travelling, some r =>
    { c with stage := .returned (.error (r.failure c.exchange.url cause)) }
  | _, _ => c

/-- A call that has returned and whose result the loop was not given yet. -/
def Call.isReturned (c : Call) : Bool :=
  match c.stage with
  | .returned _ => true
  | _ => false

/-- A call without a result. -/
def Call.isTravelling (c : Call) : Bool :=
  match c.stage with
  | .travelling => true
  | _ => false

/-- What an observer of a desk sees. -/
inductive Note where
  | logged (message : String)
  | succeeded (call : Nat) (body : List UInt8)
  | failed (call : Nat) (cause : Failure)

/-- A desk for exchanges. -/
structure Desk where
  /-- Fields that all exchanges share. -/
  shared : Header := {}
  /-- Time that an exchange may take, in nanoseconds. -/
  timeout : Int := 60000000000
  closed : Bool := false
  /-- Results that wait to be reported, by the numbers of their calls. -/
  loop : Loop Nat := {}
  calls : List Call := []
  journal : List Note := []

namespace Desk

/-- Add to the journal. -/
def note (d : Desk) (n : Note) : Desk := { d with journal := d.journal ++ [n] }

/-- Change a call. -/
def update (d : Desk) (i : Nat) (f : Call → Call) : Desk := { d with calls := d.calls.modify i f }

/-- Issue an exchange. A call whose time is over at once, or that a closed desk issues, is sent all
the same and returns without a response. -/
def issue (d : Desk) (x : Exchange) : Desk :=
  match x.request d.shared with
  | .error f => { d with calls := d.calls ++ [⟨x, none, false, .returned (.error f)⟩] }
  | .ok r =>
    let call : Call := ⟨x, some r, false, .travelling⟩
    let call :=
      if d.closed then call.give .cancelled
      else if d.timeout ≤ 0 then call.give .deadline
      else call
    let d := d.note (.logged x.sentLine)
    { d with calls := d.calls ++ [call] }

/-- A reply arrives for a travelling call. -/
def reply (d : Desk) (i : Nat) (reply : Reply) : Desk :=
  d.update i fun c =>
    match c.stage, c.request with
    | .travelling, some r => { c with stage := .returned (reply.result r c.exchange.url) }
    | _, _ => c

/-- Abort a call. -/
def abort (d : Desk) (i : Nat) : Desk :=
  d.update i fun c => { c.give .cancelled with aborted := true }

/-- The time of a call is over. -/
def expire (d : Desk) (i : Nat) : Desk := d.update i (·.give .deadline)

/-- Close the desk: every travelling call returns. -/
def close (d : Desk) : Desk :=
  { d with closed := true, calls := d.calls.map (·.give .cancelled) }

/-- Hand the result of a call to the loop. -/
def post (d : Desk) (i : Nat) : Desk :=
  match d.calls[i]? with
  | some ⟨x, _, _, .returned result⟩ =>
    let (loop, accepted) := d.loop.post i
    let d := { d with loop }.update i fun c => { c with stage := .posted result accepted }
    if accepted then d
    else d.note (.logged ("HTTPExchanger: scheduler closed, dropping result for " ++ x.url))
  | _ => d

/-- The loop took the result of a call. -/
def accepted (d : Desk) (i : Nat) : Bool :=
  match d.calls[i]? with
  | some ⟨_, _, _, .posted _ accepted⟩ => accepted
  | _ => false

/-- Close the loop. -/
def closeLoop (d : Desk) : Desk := { d with loop := d.loop.close }

/-- Report the result of a call. -/
def report (d : Desk) (i : Nat) : Desk :=
  match d.calls[i]? with
  | some ⟨_, _, aborted, .posted result _⟩ =>
    match result with
    | .ok body => d.note (.succeeded i body)
    | .error f => if aborted then d else d.note (.failed i f)
  | _ => d

/-- Run the oldest task of the loop. -/
def turn? (d : Desk) : Option Desk :=
  d.loop.next?.map fun (i, loop) => { d with loop }.report i

/-- Run tasks, at most as many as `n`, and count them. -/
def turns (d : Desk) : Nat → Desk × Nat
  | 0 => (d, 0)
  | n + 1 =>
    match d.turn? with
    | some next =>
      let (last, ran) := next.turns n
      (last, ran + 1)
    | none => (d, 0)

/-- Run the tasks that are queued now. -/
def runPending (d : Desk) : Desk × Nat := d.turns d.loop.size

/-- The first call that satisfies a test. -/
def first? (d : Desk) (test : Call → Bool) : Option Nat := d.calls.findIdx? test

/-- Wait for the next call to return, if need be until its time is over, and hand its result to the
loop. Gives the number of the call. -/
def wait (d : Desk) : Desk × Option Nat :=
  match d.first? Call.isReturned with
  | some i => (d.post i, some i)
  | none =>
    match d.first? Call.isTravelling with
    | some i => ((d.expire i).post i, some i)
    | none => (d, none)

end Desk

end PollSocket.Exchange
