import PollSocket.Network

set_option autoImplicit false

/-!
# Clients of framed connections

A client opens a connection to an address with a scheme of sockets and without credentials. Fields
that the opening handshake sets itself may not be given. Messages are sent and received only while
the connection is open.
-/

namespace PollSocket.Framed

/-- A client. -/
structure Client where
  url : String
  protocol : String := ""
  header : Header := {}
  connected : Bool := false
  /-- Messages sent over the connection. -/
  sent : List String := []
  /-- Messages that wait to be received. -/
  inbox : List String := []

namespace Client

/-- A client of an address. -/
def new (address protocol : String) (header : Header) : Client :=
  { url := webSocketUrl address, protocol, header }

/-- A field that the handshake sets itself. -/
def isReserved (c : Client) (name : String) : Bool :=
  ["Upgrade", "Connection", "Sec-Websocket-Key", "Sec-Websocket-Version",
    "Sec-Websocket-Extensions"].contains name ||
    (name == "Sec-Websocket-Protocol" && !c.protocol.isEmpty)

/-- Why a connection cannot be opened. -/
def refusal? (c : Client) (net : Network) (cancelled : Bool) : Option Failure :=
  match Url.parse c.url with
  | .error f => some (.address (Url.faultMessage c.url f))
  | .ok u =>
    let endpoint := u.endpoint (u.scheme == "wss")
    if (u.scheme != "ws" && u.scheme != "wss") || u.user.isSome then
      some (.other "malformed ws or wss URL")
    else
      match c.header.fields.find? fun (name, _) => c.isReserved name with
      | some (name, _) => some (.other ("websocket: duplicate header not allowed: " ++ name))
      | none =>
        if cancelled then some (.context ("dial tcp " ++ endpoint) .dialCancelled)
        else (net.refusal endpoint).map .other

/-- Open the connection. -/
def connect (c : Client) (net : Network) (cancelled : Bool) : Client × Except Failure Unit :=
  if c.connected then (c, .ok ())
  else
    match c.refusal? net cancelled with
    | some f => (c, .error (.context ("dial " ++ c.url) f))
    | none => ({ c with connected := true, sent := [], inbox := [] }, .ok ())

/-- Send a message. -/
def send (c : Client) (message : String) : Client × Except Failure Unit :=
  if c.connected then ({ c with sent := c.sent ++ [message] }, .ok ())
  else (c, .error .notConnected)

/-- The next message, if there is one yet. -/
def receive (c : Client) : Client × Except Failure (Option String) :=
  if c.connected then
    match c.inbox with
    | m :: rest => ({ c with inbox := rest }, .ok (some m))
    | [] => (c, .ok none)
  else (c, .error .notConnected)

/-- Close the connection, if there is one. -/
def close (c : Client) : Client := { c with connected := false }

end Client

end PollSocket.Framed
