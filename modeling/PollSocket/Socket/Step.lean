import PollSocket.Socket.World

set_option autoImplicit false

/-!
# Steps of a socket

A socket issues one handshake. Once the server has assigned a session the socket is open and keeps
one drain in flight: it carries all messages that are pending, and its answer brings the messages of
the server. A drain that fails or has a malformed answer is not followed by another one until the
consumer sends again.

`World.step` does one duty. Handlers run in steps of their own, so that every state between two acts
of a handler is a state of the world.
-/

namespace PollSocket.Socket.World

/-- Issues an exchange, which is in flight from then on. -/
def issue (w : World) (s : Nat) (body : Option (List UInt8)) (batch : Option (List String)) :
    World :=
  let x := w.socket s
  let call : Call :=
    { owner := s, exchange := Exchange.ofSession x.url x.session.wire x.protocol body, batch }
  let index := w.calls.length
  ({ w with calls := w.calls ++ [call] }.update s fun x => { x with inflight := some index }).note
    (.issued index)

/-- Aborts a call. -/
def abort (w : World) (call : Nat) : World :=
  match w.calls[call]? with
  | none => w
  | some c =>
    if c.aborted then w
    else
      { w with calls := w.calls.modify call fun c => { c with aborted := true } }.note
        (.aborted call)

/-- Gives up the call in flight after its success, so that no failure of it can be reported. -/
def release (w : World) (s : Nat) : World :=
  match (w.socket s).inflight with
  | none => w
  | some call => (w.abort call).update s fun x => { x with inflight := none }

/-- Sends all pending messages in one drain, if the socket is open and has no call in flight. -/
def drain (w : World) (s : Nat) : World :=
  let x := w.socket s
  if x.state = .opened ∧ x.inflight = none then
    let batch := x.pending
    let request : DrainRequest := ⟨x.session.wire, x.protocol, batch⟩
    (w.update s fun x => { x with pending := [], outbound := batch.length }).issue s
      (some request.body) (some batch)
  else w

/-- Closes a socket, unless it is closed. -/
def close (w : World) (s : Nat) : World :=
  let x := w.socket s
  if x.state = .closed then w
  else
    ((w.update s fun x => { x with state := .closed }).log s .debug "closed locally"
      [("session", .text x.session.wire), ("queued", .number x.pending.length)]).push
      [.emit s .closed]

/-- Closes a socket that is to close once drained, if no message is pending and the call in flight
carries none. -/
def closeIfDrained (w : World) (s : Nat) : World :=
  let x := w.socket s
  if x.closing ∧ x.state = .opened ∧ x.pending = [] ∧ (x.inflight = none ∨ x.outbound = 0) then
    w.close s
  else w

/-- Starts the handshake. -/
def establish (w : World) (s : Nat) : World := (w.log s .debug "handshake" []).issue s none none

/-- Queues a message, and drains unless a call is in flight or there is no session yet. -/
def send (w : World) (s : Nat) (text : String) : World :=
  let w := w.update s fun x => { x with pending := x.pending ++ [text] }
  let x := w.socket s
  if x.inflight.isSome || !x.session.isAssigned then w else w.drain s

/-- The handshake was answered. -/
def handshakeSucceeded (w : World) (s : Nat) (body : List UInt8) : World :=
  let w := w.release s
  match decodeHandshakeResponse body with
  | .error reason =>
    let cause := Failure.malformed .handshake reason
    (w.log s .warn "handshake failed" [("error", .failure cause)]).push
      [.emit s (.error cause), .emit s .closed]
  | .ok id =>
    let w := w.update s fun x => { x with session := .assigned id }
    if (w.socket s).state = .connecting then
      let w := w.update s fun x => { x with state := .opened }
      (w.log s .debug "open"
        [("session", .text id), ("queued", .number (w.socket s).pending.length)]).push
        [.emit s .opened, .begin s]
    else w.log s .debug "handshake completed after close" [("session", .text id)]

/-- The handshake failed. -/
def handshakeFailed (w : World) (s : Nat) (cause : Failure) : World :=
  ((w.update s fun x => { x with inflight := none }).log s .warn "handshake failed"
    [("error", .failure cause)]).push [.emit s .closed]

/-- A drain was answered. Its call stays in flight while messages are delivered, so that what
handlers send waits for the next drain. -/
def drainSucceeded (w : World) (s : Nat) (body : List UInt8) : World :=
  match decodeDrainResponse body with
  | .error reason =>
    (w.release s).push [.emit s (.error (.malformed .drain reason)), .closeIfClosing s]
  | .ok messages => w.push [.dispatch s messages, .resume s]

/-- A drain failed. -/
def drainFailed (w : World) (s : Nat) (batch : List String) (cause : Failure) : World :=
  let x := w.socket s
  let w := (w.update s fun x => { x with inflight := none }).log s .warn "write attempt failed"
    [("session", .text x.session.wire), ("batch", .number batch.length),
      ("requeued", .truth x.requeue), ("error", .failure cause)]
  let w :=
    if x.requeue then w.update s fun x => { x with pending := batch ++ x.pending } else w
  if x.closing then w.close s else w

/-- Executes a task of the loop. -/
def execute (w : World) : Task → World
  | .establish s => w.establish s
  | .send s text => w.send s text
  | .close s => w.close s
  | .closeWhenDrained s => (w.update s fun x => { x with closing := true }).closeIfDrained s
  | .handle s slot script =>
    w.update s fun x => { x with handlers := x.handlers.set slot script }
  | .succeed call body =>
    match w.calls[call]? with
    | none => w
    | some c =>
      match c.batch with
      | none => w.handshakeSucceeded c.owner body
      | some _ => w.drainSucceeded c.owner body
  | .fail call =>
    match w.calls[call]? with
    | none => w
    | some c =>
      if c.aborted then w
      else
        match c.batch with
        | none => w.handshakeFailed c.owner w.fault
        | some batch => w.drainFailed c.owner batch w.fault

/-- Posts a task for a handler; what the refusal is called is up to the act. -/
def postOr (w : World) (t : Task) (refused : Failure → Note) : World :=
  let (w, accepted) := w.post t
  if accepted then w else w.note (refused .loopClosed)

/-- Drops duties down to the end of the innermost handler: gives that handler and the rest. -/
def unwind : List Duty → Option (Nat × Event × List Duty)
  | [] => none
  | .leave s event :: rest => some (s, event, rest)
  | _ :: rest => unwind rest

/-- A handler threw a value. It ends; if it was called for an error or for the close this is only
recorded, else it is an error of its own. -/
def throw (w : World) (value : Thrown) : World :=
  match unwind w.agenda with
  | none => { w with agenda := [] }
  | some (s, event, rest) =>
    let w := { w with agenda := rest }
    let cause := Failure.callback event.slot.name value
    match event with
    | .opened | .message _ => w.push [.emit s (.error cause)]
    | .error reported =>
      w.log s .error "error handler panicked"
        [("error", .failure reported), ("panic", .failure cause)]
    | .closed => w.log s .error "close handler panicked" [("panic", .failure cause)]

/-- Does one act of a handler. -/
def perform (w : World) (s : Nat) (data : String) : Act → World
  | .send text echo =>
    w.postOr (.send s (if echo then text ++ data else text)) (.sendRefused s)
  | .close => w.postOr (.close s) (.closeRefused s)
  | .closeWhenDrained => w.postOr (.closeWhenDrained s) (.closeWhenDrainedRefused s)
  | .closeLoop => { w with loop := w.loop.close }
  | .throw value => w.throw value
  | .replace slot script => (w.post (.handle s slot (some script))).1
  | .remove slot => (w.post (.handle s slot none)).1
  | .whenData expected script =>
    if data = expected then w.push (script.map (.act s data)) else w
  | .runLoop => w.push [.run 0 (some s)]
  | .report => w.note (.reported s (w.socket s).state (w.socket s).session)

/-- Calls the consumer. -/
def emit (w : World) (s : Nat) (event : Event) : World :=
  match (w.socket s).handlers.get event.slot with
  | none => w
  | some script =>
    (w.note (.called s event)).push (script.map (.act s event.data) ++ [.leave s event])

/-- Does a duty that has been taken off the agenda. -/
def discharge (w : World) : Duty → World
  | .run ran inside =>
    match w.loop.next? with
    | some (t, loop) => ({ w with loop }.push [.run (ran + 1) inside]).execute t
    | none =>
      match inside with
      | some s => w.note (.ranInside s ran)
      | none => { w with ran }
  | .emit s event => w.emit s event
  | .act s data a => w.perform s data a
  | .leave _ _ => w
  | .dispatch _ [] => w
  | .dispatch s (m :: more) => w.push [.emit s (.message m), .dispatch s more]
  | .resume s => ((w.release s).drain s).closeIfDrained s
  | .begin s => (w.drain s).closeIfDrained s
  | .closeIfClosing s => if (w.socket s).closing then w.close s else w

/-- One step: the first duty of the agenda. -/
def step (w : World) : World :=
  match w.agenda with
  | [] => w
  | d :: rest => { w with agenda := rest }.discharge d

end PollSocket.Socket.World
