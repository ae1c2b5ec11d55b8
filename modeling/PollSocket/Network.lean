import PollSocket.Exchange.Request

set_option autoImplicit false

/-!
# Networks

A client reaches a server through a network. A network says why no connection to an address can be
opened, if none can. A request that cannot be sent at all does not get as far as that.
-/

namespace PollSocket

/-- What becomes of attempts to open a connection. -/
structure Network where
  /-- Why no connection to an address (host and port) can be opened. -/
  refusal : String → Option String

/-- The network of a machine without a way to any other. -/
def Network.unreachable : Network where
  refusal address := some ("dial tcp " ++ address ++ ": connect: network is unreachable")

/-- A port is given in a host. -/
def Url.hasPort (host : List UInt8) : Bool :=
  match Url.splitLast (Url.isAscii · ':') host with
  | some (_, port) => !port.contains 0x5D
  | none => false

/-- Host and port that an address leads to; the port depends on whether the scheme is a secure one. -/
def Url.endpoint (u : Url) (secure : Bool) : String :=
  let host := Text.ofBytes u.host
  if Url.hasPort u.host then host else host ++ (if secure then ":443" else ":80")

/-- A character that no field value holds. -/
def isFieldControl (c : Char) : Bool := (c < ' ' && c != '\t') || c == '\x7f'

/-- What is wrong with the fields of a request. -/
def Header.fault? (h : Header) : Option String :=
  h.fields.findSome? fun (name, values) =>
    if name.isEmpty || !name.toList.all isTokenChar then
      some ("net/http: invalid header field name " ++ Text.quote name)
    else if values.any (·.toList.any isFieldControl) then
      some ("net/http: invalid header field value for " ++ Text.quote name)
    else none

/-- Why a request is not sent over a network, if it is not. -/
def Network.failure? (net : Network) (r : Request) : Option Failure :=
  let scheme := r.url.scheme
  if scheme == "http" || scheme == "https" then
    match r.header.fault? with
    | some m => some (.other m)
    | none =>
      if r.url.host.isEmpty then some (.other "http: no Host in request URL")
      else (net.refusal (r.url.endpoint (scheme == "https"))).map .other
  else some (.other ("unsupported protocol scheme " ++ Text.quote scheme))

end PollSocket
