import PollSocket.Server.Clock

set_option autoImplicit false

/-!
# Histories of servers

A run of a server is a list of moves. The program around the server, its handlers and its clients are
free to choose them: requests come in at any time, threads that can go on do so in any order, messages
are sent, connections are closed, handlers are registered, callers give up and the clock moves. Where a
waiting take has several reasons to go on, any of them may be the one. A
handler that is being executed may do any act besides those of its script. A move that is not possible
changes nothing.

`History` keeps beside the world what a run leaves behind: what the message handlers were told, what
connections have accepted, what drains have taken, and where threads and connections come from.
-/

namespace PollSocket.Server

/-- What can happen next. -/
inductive Move where
  /-- A thread does its first duty, if it can. -/
  | step (t : Nat)
  | request (r : Request)
  /-- The program sends a message to a connection. -/
  | send (c : Nat) (text : String)
  /-- The program sends a message to all connections that are online. -/
  | broadcast (text : String)
  | close (c : Nat)
  | shutdown
  /-- Expired sessions are looked for. -/
  | sweep
  /-- The handler that thread `t` is executing does an act besides those of its script. -/
  | act (t : Nat) (a : Act)
  /-- The caller of a thread gives up. -/
  | cancel (t : Nat)
  /-- Nothing can be written to the caller of a thread any more. -/
  | sever (t : Nat)
  /-- Of the reasons that a waiting take of a thread has to go on, this one is chosen if it holds. -/
  | prefer (t : Nat) (reason : Poll.Wake)
  | clock (now : Int)
  | register (event : String) (reaction : Reaction)

/-- Connection and data of a message that handlers are told of. -/
def Duty.tells? : Duty → Option (Nat × String)
  | .trigger event c data => if event = "message" then some (c, data) else none
  | _ => none

/-- What a take gives its caller. -/
def result? : Poll.Take → Option (List String)
  | .done result => result
  | .waiting _ => none

namespace World

/-- The message that a duty sends, and the connection it is for. -/
def sends? (w : World) : Duty → Option (Nat × String)
  | .react _ .echo c data => some (c, data)
  | .act _ c data (.send text echo) => some (c, if echo then text ++ data else text)
  | .act _ _ data (.sendTo id text echo) =>
    (w.seen? id).map fun c => (c, if echo then text ++ data else text)
  | .send c text => some (c, text)
  | .broadcast (c :: _) text => some (c, text)
  | _ => none

/-- The connection takes the message. -/
def accepts (w : World) (c : Nat) (text : String) : Bool :=
  match (w.sendTo c text).2 with
  | .ok _ => true
  | .error _ => false

/-- What a duty of a thread takes from a connection. -/
def takes? (w : World) (x : Thread) : Duty → Option (Nat × List String)
  | .take c _ =>
    (w.conn? c).bind fun y =>
      (result? (y.queue.startTake w.now x.cancelled w.settings.pollTimeout).2).map (Prod.mk c)
  | .wait c _ deadline =>
    (w.conn? c).bind fun y =>
      (result? (y.queue.resumeTake w.now x.cancelled deadline x.preferred).2).map (Prod.mk c)
  | _ => none

/-- The connection that a duty of a thread has opened: its handlers are to be told next. -/
def opened? (w : World) (t : Nat) : Duty → Option Nat
  | .serve _ =>
    match w.threads[t]? with
    | some { agenda := .trigger _ c _ :: _, .. } => some c
    | _ => none
  | _ => none

/-- Number, connection and data of the handler that a thread is executing. -/
def acting? (w : World) (t : Nat) : Option (Nat × Nat × String) :=
  match w.threads[t]? with
  | some { agenda := .act number c data _ :: _, .. } => some (number, c, data)
  | _ => none

end World

/-- Entries of a list that belong to `k`. -/
def entriesOf {α : Type} (k : Nat) (entries : List (Nat × α)) : List α :=
  entries.filterMap fun e => if e.1 = k then some e.2 else none

/-- The books of a run, oldest entries first. -/
structure Books where
  /-- What message handlers were told, by thread and connection. -/
  told : List (Nat × Nat × String) := []
  /-- Messages that connections have accepted. -/
  accepted : List (Nat × String) := []
  /-- What was taken, by thread and connection. -/
  takes : List (Nat × Nat × List String) := []
  /-- Connections that threads have opened. -/
  begun : List (Nat × Nat) := []
  /-- Requests that threads serve; other threads have none. -/
  origins : List (Option Request) := []

namespace Books

/-- Connections and data that thread `t` told the message handlers of. -/
def toldBy (b : Books) (t : Nat) : List (Nat × String) := entriesOf t b.told

/-- Data that message handlers were told for connection `c`. -/
def toldFor (b : Books) (c : Nat) : List String := entriesOf c (b.told.map (·.2))

/-- What thread `t` took, and from where. -/
def takesBy (b : Books) (t : Nat) : List (Nat × List String) := entriesOf t b.takes

/-- What was taken from connection `c`. -/
def takesFrom (b : Books) (c : Nat) : List (List String) := entriesOf c (b.takes.map (·.2))

/-- Messages that connection `c` has accepted. -/
def acceptedBy (b : Books) (c : Nat) : List String := entriesOf c b.accepted

/-- Connections that thread `t` has opened. -/
def begunBy (b : Books) (t : Nat) : List Nat := entriesOf t b.begun

/-- Books once thread `t`, as `x`, has done its duty `d`, which led from `w` to `v`. -/
def enter (b : Books) (w v : World) (t : Nat) (x : Thread) (d : Duty) : Books :=
  { b with
    told := b.told ++ (d.tells?.map (Prod.mk t)).toList
    accepted := b.accepted ++ ((w.sends? d).filter fun s => w.accepts s.1 s.2).toList
    takes := b.takes ++ ((w.takes? x d).map (Prod.mk t)).toList
    begun := b.begun ++ ((v.opened? t d).map (Prod.mk t)).toList }

end Books

/-- A server with what led to it. -/
structure History extends Books where
  world : World

namespace History

/-- One step of a thread. -/
def step (h : History) (t : Nat) : History :=
  match h.world.threads[t]? with
  | none => h
  | some x =>
    match x.agenda with
    | [] => h
    | d :: _ =>
      let v := h.world.stepThread t
      { h.enter h.world v t x d with world := v }

/-- A thread is started. -/
def spawn (h : History) (agenda : List Duty) (origin : Option Request) : History :=
  { h with
    world := (h.world.spawn { agenda }).1
    origins := h.origins ++ [origin] }

/-- The history after a move. -/
def after (h : History) : Move → History
  | .step t => if h.world.ready t then h.step t else h
  | .request r => h.spawn [.serve r] (some r)
  | .send c text => h.spawn [.send c text] none
  | .broadcast text => h.spawn [.broadcast h.world.onlineConns text] none
  | .close c => h.spawn [.close c] none
  | .shutdown =>
    { h with world := { h.world with stopped := true } }.spawn [.shutdown h.world.onlineConns] none
  | .sweep => h.spawn [.expire h.world.expiredConns] none
  | .act t a =>
    match h.world.acting? t with
    | some (number, c, data) => { h with world := h.world.push t [.act number c data a] }
    | none => h
  | .cancel t => { h with world := h.world.updateThread t fun x => { x with cancelled := true } }
  | .sever t => { h with world := h.world.updateThread t fun x => { x with unwritable := true } }
  | .prefer t reason => { h with world := h.world.updateThread t fun x => { x with preferred := reason } }
  | .clock now => { h with world := { h.world with now := max h.world.now now } }
  | .register event reaction => { h with world := h.world.register event reaction }

/-- The history of a server that has just been set up. -/
def new (settings : Settings) (limiter : Option Limiter) (ids : Ids) : History :=
  { world := .new settings limiter ids }

def run (settings : Settings) (limiter : Option Limiter) (ids : Ids) (moves : List Move) : History :=
  moves.foldl after (new settings limiter ids)

theorem run_append (settings : Settings) (limiter : Option Limiter) (ids : Ids) (front back : List Move) :
    run settings limiter ids (front ++ back) = back.foldl after (run settings limiter ids front) :=
  List.foldl_append

end History

end PollSocket.Server
