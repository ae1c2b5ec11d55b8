import PollSocket.Framed.Pump

set_option autoImplicit false

/-!
# A connection through a pipe

The two ends of a framed connection are joined by a pipe without a buffer: a frame is written only
when the other end reads it. Time passes only where a step says so. The first failure to read or
write at an end is the answer to all that follow.
-/

namespace PollSocket.Framed

/-- Why a frame was not read. -/
inductive ReadFailure where
  /-- The other end took leave, or was lost. -/
  | left (code : Nat) (text : String)
  | timeout
  | broken
  deriving DecidableEq, Inhabited

/-- The other end was lost. -/
def ReadFailure.lost : ReadFailure := .left 1006 "unexpected EOF"

/-- What a client sends. -/
inductive Sent where
  | data (text : String)
  /-- A frame that takes leave. -/
  | leave (code : Nat) (text : String)
  deriving DecidableEq, Inhabited

/-- A code that a frame that takes leave may carry. -/
def isLeaveCode (code : Nat) : Bool :=
  (1000 ≤ code && code ≤ 1003) || (1007 ≤ code && code ≤ 1013) || (3000 ≤ code && code ≤ 4999)

/-- How long the closer waits for its frame to be read, in nanoseconds. -/
def leavePatience : Int := 1000000000

/-- A connection through a pipe. -/
structure Pipe where
  pump : Pump := {}
  /-- Time in nanoseconds. -/
  now : Int := 0
  /-- Time that a frame may take to be written; none means no limit. -/
  writeTimeout : Option Int := some 10000000000
  /-- When the pump began to write its frame. -/
  since : Int := 0
  /-- Since when the closer's frame waits to be read. -/
  leaving : Option Int := none
  /-- The server can write no more frames. -/
  writeFailed : Bool := false
  /-- The server's end is closed. -/
  serverGone : Bool := false
  /-- The client's end is closed. -/
  clientGone : Bool := false
  serverFailure : Option ReadFailure := none
  clientFailure : Option ReadFailure := none
  deriving Inhabited

namespace Pipe

/-- The frame that the pump is writing cannot be written any more. -/
def isStuck (p : Pipe) : Bool :=
  p.clientGone || p.writeFailed || p.writeTimeout.any fun limit => p.since + limit ≤ p.now

/-- One thing that happens by itself, if there is one. -/
def settleOnce? (p : Pipe) : Option Pipe :=
  match p.pump.closeAsked? with
  | some pump => some { p with pump }
  | none =>
    match if p.isStuck then p.pump.broke? else none with
    | some pump => some { p with pump, writeFailed := true }
    | none =>
      match p.pump.stop? with
      | some pump => some { p with pump }
      | none =>
        if p.pump.closing = .waiting && p.pump.stage = .gone && p.leaving.isNone then
          if p.clientGone || p.writeFailed then
            some { p with
              pump := (p.pump.leave? false).getD p.pump, serverGone := true, writeFailed := true }
          else some { p with leaving := some p.now }
        else
          match p.leaving.filter fun since => since + leavePatience ≤ p.now || p.clientGone with
          | some _ =>
            some { p with
              pump := (p.pump.leave? false).getD p.pump
              leaving := none, serverGone := true, writeFailed := true }
          | none =>
            if p.pump.closed then none
            else (p.pump.take?).map fun pump => { p with pump, since := p.now }

/-- All that happens by itself; `fuel` bounds its number. -/
def settleFor : Nat → Pipe → Pipe
  | 0, p => p
  | fuel + 1, p =>
    match p.settleOnce? with
    | some next => settleFor fuel next
    | none => p

/-- All that happens by itself. -/
def settle (p : Pipe) : Pipe := settleFor (2 * p.pump.queue.length + p.pump.asked + 8) p

/-- Let time pass. -/
def sleep (p : Pipe) (ns : Int) : Pipe := settle { p with now := p.now + ns }

/-- Write a message. -/
def write (p : Pipe) (message : String) : Pipe × Except Failure Unit :=
  let (pump, r) := p.pump.write message
  (settle { p with pump }, r)

/-- Remember why the client cannot read. -/
def clientFails (p : Pipe) (f : ReadFailure) : Pipe × Except ReadFailure String :=
  ({ p with clientFailure := some f }, .error f)

/-- The client reads a frame. -/
def clientRead (p : Pipe) : Pipe × Except ReadFailure String :=
  match p.clientFailure with
  | some f => (p, .error f)
  | none =>
    if p.clientGone then p.clientFails .broken
    else
      match p.pump.stage with
      | .writing m => (settle { p with pump := (p.pump.wrote?).getD p.pump }, .ok m)
      | _ =>
        if p.leaving.isSome then
          clientFails { p with
            pump := (p.pump.leave? true).getD p.pump
            leaving := none, serverGone := true, writeFailed := true } (.left 1000 "")
        else if p.serverGone then p.clientFails .lost
        else p.clientFails .timeout

/-- Remember why the server cannot read. -/
def serverFails (p : Pipe) (f : ReadFailure) : Pipe × Except ReadFailure String :=
  ({ p with serverFailure := some f }, .error f)

/-- The server reads, while the client sends something or, for as long as the server may wait, nothing.
A frame that takes leave is answered with one, after which the server can write no more. -/
def serverRead (p : Pipe) (sent : Option Sent) : Pipe × Except ReadFailure String :=
  match p.serverFailure with
  | some f => (p, .error f)
  | none =>
    if p.serverGone then p.serverFails .broken
    else if p.clientGone then p.serverFails .lost
    else
      match sent with
      | some (.data text) => (p, .ok text)
      | some (.leave code text) =>
        let p := { p with writeFailed := true }
        if code = 1005 then p.serverFails (.left 1005 "")
        else if isLeaveCode code then p.serverFails (.left code text)
        else p.serverFails .broken
      | none => p.serverFails .timeout

/-- Close the server's end and wait until that is done. -/
def close (p : Pipe) : Pipe :=
  let p := settle { p with pump := p.pump.close }
  if p.pump.closing = .waiting then
    let p := match p.pump.stage, p.writeTimeout with
      | .writing _, some limit => sleep p (p.since + limit - p.now)
      | _, _ => p
    if p.leaving.isSome then sleep p leavePatience else p
  else p

/-- Close the server's end while the client reads; gives what the client reads. -/
def closeWhileRead (p : Pipe) : Pipe × Except ReadFailure String :=
  let (p, r) := clientRead (settle { p with pump := p.pump.close })
  (p.close, r)

/-- Close the client's end. -/
def leaveClient (p : Pipe) : Pipe := settle { p with clientGone := true }

end Pipe

end PollSocket.Framed
