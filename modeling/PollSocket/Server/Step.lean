import PollSocket.Server.Upgrade
import PollSocket.Server.World

set_option autoImplicit false

/-!
# Steps of a server

A request without a session is a handshake: it allocates a session and tells the handlers. A request
with one is a drain: it holds the session, tells the handlers of its messages in order, takes what
is queued for the client, and lets go of the session. Requests that are refused change nothing.

`World.stepThread` does one duty of one thread.
-/

namespace PollSocket.Server.World

/-! ## Answers -/

/-- Writes an answer; nothing of the body arrives if the caller cannot be written to. -/
def respond (w : World) (t : Nat) (status : Nat) (header : Header) (body : List UInt8) : World :=
  w.updateThread t fun x =>
    { x with answer := { status, header, body := if x.unwritable then [] else body } }

/-- Refuses a request in words. -/
def refuse (w : World) (t : Nat) (status : Nat) (header : Header) (text : String) : World :=
  w.respond t status
    ((header.set "Content-Type" "text/plain; charset=utf-8").set "X-Content-Type-Options" "nosniff")
    (Text.encode (text ++ "\n"))

/-- Writes a message body. -/
def respondJson (w : World) (t : Nat) (body : List UInt8) : World :=
  let broken := match w.threads[t]? with
    | some x => x.unwritable
    | none => false
  let w := w.respond t 200 (({} : Header).set "Content-Type" jsonContent) body
  if broken then w.trace "Server: error writing response: broken pipe" else w

/-! ## Connections -/

/-- Queues a message for a connection. -/
def sendTo (w : World) (c : Nat) (text : String) : World × Except Failure Unit :=
  match w.conn? c with
  | none => (w, .error .connectionClosed)
  | some x =>
    if x.connected then
      let (queue, r) := x.queue.write text
      (w.updateConn c fun x => { x with queue }, r)
    else
      (w.trace ("Conn " ++ x.id ++ ": attempted to send to closed conn"), .error .connectionClosed)

/-- Closes a connection, unless it is closed: it leaves the tables, then the handlers are told. -/
def closeConn (w : World) (t : Nat) (c : Nat) : World :=
  match w.conn? c with
  | none => w
  | some x =>
    if x.connected then
      let w := w.trace ("Conn " ++ x.id ++ ": closing")
      let w := w.updateConn c fun x => { x with connected := false, queue := x.queue.close }
      let w := { w with
        online := dropEntry x.id w.online
        sessions := dropEntry x.id w.sessions }
      (w.log .debug "disconnected" [("session", .text x.id)]).push t [.trigger "disconnect" c ""]
    else w

/-! ## Requests -/

/-- Where requests come from. -/
def remoteAddress : String := "192.0.2.1:1234"

/-- A request without a session. -/
def handshake (w : World) (t : Nat) (r : Request) : World :=
  let (limiter, admitted) := match w.limiter with
    | none => (none, true)
    | some l => let (l, admitted) := l.allow w.now; (some l, admitted)
  let w := { w with limiter }
  if admitted then
    let named := r.header.get protocolField
    let protocol := if named.isEmpty then defaultProtocol else named
    let (id, ids) := w.ids.draw
    let c := w.conns.length
    let queue : Poll.Queue :=
      { session := id, limit := w.settings.bufferSize, patience := w.settings.sessionTimeout,
        lastActivity := w.now }
    let x : Conn := { id, protocol, queue }
    let w := w.trace ("Creating new conn with ID: " ++ id)
    let w := { w with
      ids
      conns := w.conns ++ [x]
      sessions := putEntry id c w.sessions
      online := putEntry id c w.online }
    (w.log .debug "handshake" [("session", .text id), ("protocol", .text protocol),
      ("remote", .text remoteAddress)]).push t [.trigger "connect" c "", .greet c]
  else w.refuse t 429 {} "too many handshakes"

/-- A session that can be drained. -/
def liveSession? (w : World) (id : String) : Option Nat :=
  match w.sessions.lookup id, w.online.lookup id with
  | some c, some _ =>
    match w.conn? c with
    | some x => if x.queue.expired w.now then none else some c
    | none => none
  | _, _ => none

/-- A request that names a session. -/
def drain (w : World) (t : Nat) (session : String) (body : List UInt8) : World :=
  match w.liveSession? session with
  | none => w.refuse t 404 {} "session not found"
  | some c =>
    match decodeDrainRequest? (body.take maxBody) with
    | none => w.refuse t 400 {} "malformed drain: <json>"
    | some r =>
      if !r.session.isEmpty && r.session != session then w.refuse t 400 {} "session mismatch"
      else w.push t [.lock c, .deliver c r.messages, .take c r.messages.length, .unlock c]

/-- Refuses to take over the connection of a request; none of this world can be taken over. -/
def refuseUpgrade (w : World) (t : Nat) (r : Request) : World :=
  let refusal := upgradeRefusal r.method r.header
  let w := w.refuse t refusal.status (({} : Header).set "Sec-Websocket-Version" "13") refusal.answer
  w.log .warn "websocket upgrade failed" [("error", .failure (.other refusal.message))]

/-- Starts to serve a request. -/
def serve (w : World) (t : Nat) (r : Request) : World :=
  if asksUpgrade r.header then w.refuseUpgrade t r
  else if r.method != "POST" then
    w.refuse t 405 (({} : Header).set "Allow" "POST") "method not allowed"
  else
    let session := r.header.get sessionField
    if session.isEmpty || session == nullSession then w.handshake t r
    else w.drain t session r.body

/-- Answers a drain with what was taken, if the client is still there. -/
def reply (w : World) (t : Nat) (c : Nat) (received : Nat) (messages : Option (List String)) :
    World :=
  match w.conn? c with
  | none => w
  | some x =>
    match messages with
    | none => w.log .debug "drain abandoned by client" [("session", .text x.id)]
    | some messages =>
      (w.log .debug "drain" [("session", .text x.id), ("in", .number received),
        ("out", .number messages.length)]).respondJson t (drainResponseBody messages)

/-- Goes on with a take. -/
def taken (w : World) (t : Nat) (c : Nat) (received : Nat) (r : Poll.Queue × Poll.Take) : World :=
  let w := w.updateConn c fun x => { x with queue := r.1 }
  match r.2 with
  | .done messages => w.push t [.reply c received messages]
  | .waiting deadline => w.push t [.wait c received deadline]

/-! ## Handlers -/

/-- A handler threw a value: the thread ends, and lets go of the sessions it holds. -/
def throw (w : World) (t : Nat) (value : Thrown) : World :=
  let release (x : Conn) : Conn := if x.holder = some t then { x with holder := none } else x
  { w with conns := w.conns.map release }.updateThread t fun x =>
    { x with agenda := [], thrown := some value }

/-- Queues a message for a handler, which is told of a failure. -/
def sendFor (w : World) (number : Nat) (c : Nat) (text : String) : World :=
  let (w, r) := w.sendTo c text
  match r with
  | .ok _ => w
  | .error cause => w.note (.sendFailed number cause)

/-- Does one act of a handler. -/
def perform (w : World) (t number c : Nat) (data : String) : Act → World
  | .send text echo => w.sendFor number c (if echo then text ++ data else text)
  | .sendTo id text echo =>
    match w.seen? id with
    | none => w.note (.noConn number id)
    | some c => w.sendFor number c (if echo then text ++ data else text)
  | .broadcast text echo =>
    w.push t [.broadcast w.onlineConns (if echo then text ++ data else text)]
  | .close => w.push t [.close c]
  | .count => w.note (.counted number w.count)
  | .info =>
    match w.conn? c with
    | some x => w.note (.info number x)
    | none => w
  | .get id => w.note (.got number (w.get? id))
  | .handle event script => w.registerScript event script
  | .whenData expected script =>
    if data = expected then w.push t (script.map (.act number c data)) else w
  | .throw value => w.throw t value

/-- Records something about a client. -/
def logClient (w : World) (level : Log.Level) (message : String)
    (attrs : List (String × Log.Value)) : World :=
  w.note (.logged false { level, message, attrs := ("component", .text "serve") :: attrs })

/-- A handler reacts to an event. -/
def react (w : World) (t : Nat) (event : String) (c : Nat) (data : String) : Reaction → World
  | .script number acts =>
    match w.conn? c with
    | none => w
    | some x =>
      (w.note (.called number event x.id data)).push t (acts.map (.act number c data))
  | .welcome =>
    match w.conn? c with
    | none => w
    | some x =>
      w.logClient .info "client connected" [("session", .text x.id), ("protocol", .text x.protocol),
        ("online", .number w.count)]
  | .farewell =>
    match w.conn? c with
    | none => w
    | some x =>
      w.logClient .info "client disconnected" [("session", .text x.id), ("online", .number w.count)]
  | .echo =>
    let (w, r) := w.sendTo c data
    match r, w.conn? c with
    | .error cause, some x =>
      w.logClient .warn "echo failed" [("session", .text x.id), ("error", .failure cause)]
    | _, _ => w
  | .relay => w.push t [.broadcast w.onlineConns data]

/-! ## Duties -/

/-- Does a duty of a thread that has been taken off its agenda. -/
def discharge (w : World) (t : Nat) (x : Thread) : Duty → World
  | .serve r => w.serve t r
  | .trigger event c data =>
    let told := w.handlers.filter fun h => h.event == event
    w.push t (told.map fun h => .react event h.reaction c data)
  | .react event r c data => w.react t event c data r
  | .act number c data a => w.perform t number c data a
  | .greet c =>
    match w.conn? c with
    | some x => w.respondJson t (handshakeResponseBody x.id)
    | none => w
  | .lock c => w.updateConn c fun x => { x with holder := some t }
  | .deliver _ [] => w
  | .deliver c (m :: more) => w.push t [.trigger "message" c m, .deliver c more]
  | .take c received =>
    match w.conn? c with
    | none => w
    | some y =>
      w.taken t c received (y.queue.startTake w.now x.cancelled w.settings.pollTimeout)
  | .wait c received deadline =>
    match w.conn? c with
    | none => w
    | some y => w.taken t c received (y.queue.resumeTake w.now x.cancelled deadline x.preferred)
  | .reply c received messages => w.reply t c received messages
  | .unlock c => w.updateConn c fun x => { x with holder := none }
  | .send c text =>
    let (w, r) := w.sendTo c text
    w.updateThread t fun x => { x with outcome := r }
  | .broadcast [] _ => w
  | .broadcast (c :: more) text =>
    let (w, r) := w.sendTo c text
    let w := w.push t [.broadcast more text]
    match r, w.conn? c with
    | .error cause, some x =>
      w.log .warn "broadcast failed" [("session", .text x.id), ("error", .failure cause)]
    | _, _ => w
  | .close c => w.closeConn t c
  | .shutdown [] => w
  | .shutdown (c :: more) =>
    if x.cancelled then w.updateThread t fun x => { x with outcome := .error .cancelled }
    else w.push t [.close c, .shutdown more]
  | .expire [] => w
  | .expire (c :: more) =>
    match w.conn? c with
    | none => w.push t [.expire more]
    | some x =>
      (w.log .info "session expired" [("session", .text x.id)]).push t [.close c, .expire more]

/-- The thread can do its first duty now. -/
def ready (w : World) (t : Nat) : Bool :=
  match w.threads[t]? with
  | none => false
  | some x =>
    match x.agenda with
    | [] => false
    | .lock c :: _ =>
      match w.conn? c with
      | some y => y.holder.isNone
      | none => true
    | .wait c _ deadline :: _ =>
      match w.conn? c with
      | some y => (y.queue.reason? w.now x.cancelled deadline x.preferred).isSome
      | none => true
    | _ => true

/-- One step of a thread: its first duty. -/
def stepThread (w : World) (t : Nat) : World :=
  match w.threads[t]? with
  | none => w
  | some x =>
    match x.agenda with
    | [] => w
    | d :: rest => (w.updateThread t fun x => { x with agenda := rest }).discharge t x d

end PollSocket.Server.World
