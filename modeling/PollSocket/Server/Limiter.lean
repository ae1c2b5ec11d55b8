set_option autoImplicit false

/-!
# Handshake limits

A limiter holds up to `burst` tokens, gains `rate` of them per second and gives one to every
handshake it admits. It may give one that it will have within the same nanosecond.
-/

namespace PollSocket.Server

/-- Limiter of handshakes. -/
structure Limiter where
  rate : Float
  burst : Int
  tokens : Float
  /-- Time of the last admission. -/
  last : Int := 0

/-- The rate that stands for no limit at all. -/
def unlimitedRate : Float := 1.7976931348623157e308

/-- A limiter that has all its tokens. -/
def Limiter.new (rate : Float) (burst : Int) : Limiter :=
  { rate, burst, tokens := Float.ofInt burst }

/-- Limiter of a configuration: a rate of zero means none, and a burst is at least one. -/
def Limiter.ofConfig? (rate : Float) (burst : Int) : Option Limiter :=
  if rate > 0 then some (Limiter.new rate (max burst 1)) else none

/-- Seconds of a number of nanoseconds. -/
def secondsOf (d : Int) : Float :=
  Float.ofInt (Int.tdiv d 1000000000) + Float.ofInt (Int.tmod d 1000000000) / 1000000000

/-- Tokens at a time, one of them given away. -/
def Limiter.tokensAfter (l : Limiter) (now : Int) : Float :=
  let elapsed := if now < l.last then 0 else now - l.last
  let gained := if l.rate ≤ 0 then 0 else secondsOf elapsed * l.rate
  let tokens := l.tokens + gained
  let burst := Float.ofInt l.burst
  (if tokens > burst then burst else tokens) - 1

/-- Asks for admission. -/
def Limiter.allow (l : Limiter) (now : Int) : Limiter × Bool :=
  if l.rate == unlimitedRate then (l, true)
  else
    let tokens := l.tokensAfter now
    let soon := if tokens < 0 then 0 < l.rate && (-tokens / l.rate) * 1000000000 < 1 else true
    if 1 ≤ l.burst && soon then ({ l with tokens, last := now }, true) else (l, false)

end PollSocket.Server
