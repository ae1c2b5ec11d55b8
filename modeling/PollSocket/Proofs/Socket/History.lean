import PollSocket.Socket.Run

set_option autoImplicit false

/-!
# Histories of sockets

A run of a loop with its sockets is a list of moves. The program around the sockets, their handlers
and the network are free to choose them: sockets are created, operations are posted at any time, the
pending tasks are run when no run is in progress, and every issued call is completed once, by a task
of the loop. A handler that is being executed may do any act besides those of its script, so that a
handler can be any program that uses the socket, one that runs the loop again included. A move that
is not possible changes nothing.

`History` keeps beside the world what a run leaves behind: the tasks that were taken, the occasions
to call a consumer, and where every message is, by its position among the messages that its socket
was asked to send. Positions follow the messages: a send puts the next position behind
the queue, a drain takes all queued positions along, and a failed drain brings them back if its
socket is one that queues again.
-/

namespace PollSocket.Socket

/-- What a program can ask of a socket. -/
inductive Operation where
  | send (text : String)
  | close
  | closeWhenDrained
  | handle (slot : Slot) (script : Option Script)

/-- The task by which socket `s` does an operation. -/
def Operation.task (s : Nat) : Operation → Task
  | .send text => .send s text
  | .close => .close s
  | .closeWhenDrained => .closeWhenDrained s
  | .handle slot script => .handle s slot script

/-- What can happen next. -/
inductive Move where
  /-- The first duty of the agenda is done. -/
  | step
  /-- The program runs the pending tasks. -/
  | drive
  | create (o : Options)
  /-- An operation on a socket is posted. -/
  | post (s : Nat) (op : Operation)
  /-- The handler that is being executed does an act besides those of its script. -/
  | act (a : Act)
  /-- A call succeeds: its completion is posted. -/
  | succeed (call : Nat) (body : List UInt8)
  /-- A call fails: its completion is posted. -/
  | fail (call : Nat)
  /-- The network has another reason for failures. -/
  | fault (cause : Failure)
  | closeLoop

/-- The move is one of the program or of its handlers, not of the network. -/
def Move.isLocal : Move → Bool
  | .create _ => false
  | .succeed _ _ => false
  | .fail _ => false
  | _ => true

/-- The call of a consumer that a note is about. -/
def Note.called? : Note → Option (Nat × Event)
  | .called s event => some (s, event)
  | _ => none

namespace World

/-- No task is being executed: nothing is left to do, or only to go on with the run itself. -/
def idle (w : World) : Bool :=
  match w.agenda with
  | [] => true
  | [.run _ none] => true
  | _ => false

/-- The task that the next step takes. -/
def taking? (w : World) : Option Task :=
  match w.agenda with
  | .run _ _ :: _ => w.loop.next?.map (·.1)
  | _ => none

/-- The occasion to call a consumer that the next step is. -/
def emitting? (w : World) : Option (Nat × Event) :=
  match w.agenda with
  | .emit s event :: _ => some (s, event)
  | _ => none

/-- The occasion to call a consumer that a move is. -/
def due? (w : World) : Move → Option (Nat × Event)
  | .step => w.emitting?
  | _ => none

/-- The consumer of a socket has a handler for an occasion. -/
def attends (w : World) (o : Nat × Event) : Bool := ((w.socket o.1).handlers.get o.2.slot).isSome

/-- What consumers were called for, as an observer sees it. -/
def callbacks (w : World) : List (Nat × Event) := w.journal.filterMap Note.called?

/-- Socket and data of the handler that is being executed. -/
def handler? (w : World) : Option (Nat × String) :=
  match w.agenda with
  | .act s data _ :: _ => some (s, data)
  | .leave s event :: _ => some (s, event.data)
  | _ => none

/-- Calls that socket `s` has issued, oldest first. -/
def callsOf (w : World) (s : Nat) : List Nat :=
  (List.range w.calls.length).filter fun c => w.calls[c]?.map (·.owner) == some s

/-- Messages that a call carries. -/
def batch (w : World) (call : Nat) : List String := (w.calls[call]?.bind (·.batch)).getD []

/-- The call is issued and nobody has answered it. -/
def awaits (w : World) (call : Nat) : Bool :=
  match w.calls[call]? with
  | some c => !c.answered
  | none => false

end World

/-! ## Tasks that were taken -/

/-- Text that a task sends on socket `s`. -/
def Task.sentOn? (s : Nat) : Task → Option String
  | .send r text => if r = s then some text else none
  | _ => none

/-- The task starts the success callback of a call. -/
def Task.succeeds (call : Nat) : Task → Bool
  | .succeed c _ => c == call
  | _ => false

/-- The task starts the failure callback of a call. -/
def Task.fails (call : Nat) : Task → Bool
  | .fail c => c == call
  | _ => false

/-- The success callback of a call is among the tasks. -/
def succeeded (taken : List Task) (call : Nat) : Bool := taken.any (Task.succeeds call)

/-- The failure callback of a call is among the tasks. -/
def failed (taken : List Task) (call : Nat) : Bool := taken.any (Task.fails call)

/-- A completion callback of a call is among the tasks. -/
def completed (taken : List Task) (call : Nat) : Bool := succeeded taken call || failed taken call

/-! ## Histories -/

/-- The books of a run: the tasks that were taken and the occasions to call a consumer, oldest first, and
where messages are. -/
structure Books where
  taken : List Task := []
  emitted : List (Nat × Event) := []
  /-- Positions of the messages that wait in a socket. -/
  queued : Nat → List Nat := fun _ => []
  /-- Positions of the messages that a call carries. -/
  carried : Nat → List Nat := fun _ => []

namespace Books

/-- Messages that socket `s` was asked to send by the tasks so far. -/
def sent (b : Books) (s : Nat) : List String := b.taken.filterMap (Task.sentOn? s)

/-- Message at a position. -/
def text (b : Books) (s position : Nat) : String := (b.sent s).getD position ""

/-- Positions that calls of socket `s` carry whose success has been reported, in the order of their
issue. -/
def acked (b : Books) (w : World) (s : Nat) : List Nat :=
  ((w.callsOf s).filter (succeeded b.taken)).flatMap b.carried

/-- Positions that outstanding calls of socket `s` carry. -/
def afloat (b : Books) (w : World) (s : Nat) : List Nat :=
  ((w.callsOf s).filter fun c => !completed b.taken c).flatMap b.carried

/-- Books once a task is taken from a world, before it issues anything. -/
def take (b : Books) (w : World) (t : Task) : Books :=
  { b with
    taken := b.taken ++ [t]
    queued := fun s =>
      match t with
      | .send r _ => if s = r then b.queued s ++ [(b.sent s).length] else b.queued s
      | .fail call =>
        if (w.calls[call]?.map (·.owner)) = some s ∧ (w.socket s).requeue then
          b.carried call ++ b.queued s
        else b.queued s
      | _ => b.queued s }

/-- Books once there is an occasion to call the consumer of a socket. -/
def emit (b : Books) (s : Nat) (event : Event) : Books := { b with emitted := b.emitted ++ [(s, event)] }

/-- Books once the call `call`, if it is issued, has taken the queue of its socket along. -/
def issue (b : Books) (call : Nat) : Option Call → Books
  | some { owner, batch := some _, .. } =>
    { b with
      queued := fun s => if s = owner then [] else b.queued s
      carried := fun c => if c = call then b.queued owner else b.carried c }
  | _ => { b with carried := fun c => if c = call then [] else b.carried c }

end Books

/-- Books once the next step has taken its task or found its consumer. -/
def World.booked (w : World) (b : Books) : Books :=
  match w.taking?, w.emitting? with
  | some t, _ => b.take w t
  | none, some (s, event) => b.emit s event
  | none, none => b

/-- A world with what led to it. -/
structure History extends Books where
  world : World := {}

namespace History

/-- The call was issued by socket `s`, and no completion of it has started. -/
def outstanding (h : History) (s call : Nat) : Prop :=
  (∃ c, h.world.calls[call]? = some c ∧ c.owner = s) ∧ completed h.taken call = false

/-- One step. A step takes one task, finds one consumer and issues one call at most. -/
def step (h : History) : History :=
  let w := h.world.step
  { (h.world.booked h.toBooks).issue h.world.calls.length w.calls[h.world.calls.length]? with
    world := w }

/-- The history after a move. -/
def after (h : History) : Move → History
  | .step => h.step
  | .drive =>
    if h.world.agenda.isEmpty then { h with world := { h.world with agenda := [.run 0 none] } }
    else h
  | .create o => { h with world := h.world.create o }
  | .post s op =>
    if s < h.world.sockets.length then { h with world := (h.world.post (op.task s)).1 } else h
  | .act a =>
    match h.world.handler? with
    | some (s, data) => { h with world := h.world.perform s data a }
    | none => h
  | .succeed call body =>
    if h.world.awaits call then
      { h with world := (h.world.answer call (.succeed call body)).1 }
    else h
  | .fail call =>
    if h.world.awaits call then { h with world := (h.world.answer call (.fail call)).1 } else h
  | .fault cause => { h with world := { h.world with fault := cause } }
  | .closeLoop => { h with world := { h.world with loop := h.world.loop.close } }

/-- The history of a run that starts with an empty loop. -/
def run (moves : List Move) : History := moves.foldl after {}

theorem run_concat (moves : List Move) (m : Move) : run (moves ++ [m]) = (run moves).after m :=
  List.foldl_append

end History

end PollSocket.Socket
