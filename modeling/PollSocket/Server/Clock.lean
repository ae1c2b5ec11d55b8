import PollSocket.Config.Basic
import PollSocket.Server.Step
import PollSocket.Total

set_option autoImplicit false

/-!
# Running a server

The threads of a server run in turn, and the clock moves only when none of them can go on. It stops
at every deadline and at every sweep. Handler scripts are finite, nothing but the handlers adds
handlers, and a connection closes once, so threads come to rest; `World.budget` bounds their steps.
-/

namespace PollSocket.Server

/-- Number of events that a duty can lead to. -/
def Duty.events : Duty → Nat
  | .serve r => r.body.length + 1
  | .deliver _ messages => messages.length
  | .broadcast cs _ => cs.length
  | .shutdown cs => cs.length
  | .expire cs => cs.length
  | _ => 1

/-- Number of acts in a duty. -/
def Duty.acts : Duty → Nat
  | .act _ _ _ a => a.size
  | .react _ (.script _ acts) _ _ => sizeOfScript acts
  | _ => 0

/-- How deep registrations are nested in a duty. -/
def Duty.depth : Duty → Nat
  | .act _ _ _ a => a.depth
  | .react _ (.script _ acts) _ _ => depthOfScript acts
  | _ => 0

namespace World

/-- Bound on the steps of all threads: every event is told to all handlers, whose acts can register
further ones only as deep as their scripts are nested, and an act takes no more steps than there are
connections. -/
def budget (w : World) : Nat :=
  let duties := w.threads.flatMap (·.agenda)
  let conns := w.conns.length + w.threads.length + 2
  let events := total Duty.events duties + conns
  let acts := total Handler.size w.handlers + total Duty.acts duties + 4
  let depth := max ((w.handlers.map Handler.depth).foldl max 0)
    ((duties.map Duty.depth).foldl max 0)
  16 * acts * conns * Nat.pow (events + 1) (depth + 1)

/-- The thread that goes on: `current` if it can, else the oldest that can. -/
def nextReady? (w : World) (current : Nat) : Option Nat :=
  if w.ready current then some current
  else (List.range w.threads.length).find? w.ready

/-- Lets threads go on until none can, `fuel` steps at most. -/
def settleWith (current : Nat) : Nat → World → World
  | 0, w => w
  | fuel + 1, w =>
    match w.nextReady? current with
    | none => w
    | some t => settleWith current fuel (w.stepThread t)

/-- Lets threads go on until none can, `current` in front of the others. -/
def settle (w : World) (current : Nat) : World := settleWith current w.budget w

/-- Starts a thread. -/
def spawn (w : World) (x : Thread) : World × Nat :=
  ({ w with threads := w.threads ++ [x] }, w.threads.length)

/-- Starts a thread and lets it go on as far as it can. -/
def start (w : World) (x : Thread) : World × Nat :=
  let (w, t) := w.spawn x
  (w.settle t, t)

/-- The thread has nothing left to do. -/
def finished (w : World) (t : Nat) : Bool :=
  match w.threads[t]? with
  | none => true
  | some x => x.agenda.isEmpty

/-- Time at which a thread that waits goes on by itself. -/
def Thread.deadline? (x : Thread) : Option Int :=
  match x.agenda with
  | .wait _ _ deadline :: _ => some deadline
  | _ => none

/-- The earlier of two times that may be missing. -/
def earlier : Option Int → Option Int → Option Int
  | some a, some b => some (min a b)
  | some a, none => some a
  | none, b => b

/-- The next time at which something happens by itself. -/
def nextTime? (w : World) : Option Int :=
  earlier (if w.stopped then none else some w.nextSweep)
    (w.threads.foldl (fun d x => earlier d (Thread.deadline? x)) none)

/-- Sessions that a sweep finds expired. -/
def expiredConns (w : World) : List Nat :=
  w.sessions.filterMap fun (id, c) =>
    match w.conn? c with
    | some x => if x.queue.expired w.now then w.online.lookup id else none
    | none => none

/-- Does what is due at the current time. -/
def fire (w : World) : World :=
  let w :=
    if !w.stopped && w.nextSweep ≤ w.now then
      let w := { w with nextSweep := w.nextSweep + w.settings.sweepInterval }
      (w.spawn { agenda := [.expire w.expiredConns] }).1
    else w
  w.settle w.threads.length

/-- Moves the clock to `target`, stopping at all times in between; `fuel` bounds their number. -/
def advanceWith (target : Int) : Nat → World → World
  | 0, w => { w with now := target }
  | fuel + 1, w =>
    match w.nextTime? with
    | some time =>
      if time ≤ target then advanceWith target fuel { w with now := max w.now time }.fire
      else { w with now := target }
    | none => { w with now := target }

/-- Number of times the clock stops at within a span of time. -/
def stops (w : World) (span : Int) : Nat :=
  (Int.tdiv span w.settings.sweepInterval).toNat + w.threads.length + 2

/-- Moves the clock on by a span of time. -/
def sleep (w : World) (span : Int) : World :=
  let target := w.now + max span 0
  (advanceWith target (w.stops (max span 0)) w).settle w.threads.length

/-- Moves the clock until a thread has finished; `fuel` bounds the number of stops. -/
def awaitWith (t : Nat) : Nat → World → World
  | 0, w => w
  | fuel + 1, w =>
    if w.finished t then w
    else
      match w.nextTime? with
      | some time => awaitWith t fuel { w with now := max w.now time }.fire
      | none => w

/-- Moves the clock until a thread has finished. A thread waits for those that hold its session in
turn, each of them for the poll timeout at most. -/
def await (w : World) (t : Nat) : World :=
  awaitWith t ((w.threads.length + 1) * w.stops w.settings.pollTimeout) w

/-- Runs a thread to its end. -/
def run (w : World) (x : Thread) : World × Option Thread :=
  let (w, t) := w.start x
  let w := w.await t
  (w, w.threads[t]?)

/-- Gives up a thread. -/
def cancel (w : World) (t : Nat) : World :=
  (w.updateThread t fun x => { x with cancelled := true }).settle t

/-- Stops the sweeps and closes all connections. -/
def shutdown (w : World) (cancelled : Bool) : World × Option Thread :=
  let w := { w with stopped := true }
  w.run { agenda := [.shutdown w.onlineConns], cancelled }

/-- A server at the start of its clock. -/
def new (settings : Settings) (limiter : Option Limiter) (ids : Ids) : World :=
  { settings, limiter, ids, nextSweep := settings.sweepInterval }

/-- Registers the handlers of the echo server, or of one that relays messages to all. -/
def withEcho (w : World) (relay : Bool) : World :=
  ((w.register "connect" .welcome).register "disconnect" .farewell).register "message"
    (if relay then .relay else .echo)

/-- The server that a configuration describes, with the handlers of the program that serves it. -/
def ofConfig (c : ServerConfig) (ids : Ids) : World :=
  let settings : Settings :=
    { pollTimeout := c.pollTimeout, sessionTimeout := c.sessionTimeout, bufferSize := c.bufferSize,
      ownLog := false }
  (new settings (Limiter.ofConfig? c.handshakeRate c.handshakeBurst) ids).withEcho c.broadcast

end World

end PollSocket.Server
