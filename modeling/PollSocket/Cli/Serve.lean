import PollSocket.Config.Basic
import PollSocket.Log.Record
import PollSocket.Url

set_option autoImplicit false

/-!
# Serving

A server listens on an address of a host and a port, and serves until its caller gives up. An address
that cannot be listened on ends it at once.
-/

namespace PollSocket.Cli

/-- Part of a text behind the last colon, and in front of it. -/
def splitLastColon (cs : List Char) : Option (List Char × List Char) :=
  let port := (cs.reverse.takeWhile (· != ':')).reverse
  if port.length = cs.length then none else some (cs.take (cs.length - port.length - 1), port)

/-- Host and port of an address, or what is wrong with it. -/
def hostPort (address : String) : Except String (String × String) :=
  let cs := address.toList
  match splitLastColon cs with
  | none => .error "missing port in address"
  | some (front, port) =>
    let unbracketed : Except String (String × String) :=
      if front.contains ':' then .error "too many colons in address"
      else if cs.contains '[' then .error "unexpected '[' in address"
      else if cs.contains ']' then .error "unexpected ']' in address"
      else .ok (String.ofList front, String.ofList port)
    match cs with
    | '[' :: inner =>
      let host := inner.takeWhile (· != ']')
      let behind := (inner.dropWhile (· != ']')).drop 1
      if !inner.contains ']' then .error "missing ']' in address"
      else if behind.isEmpty then .error "missing port in address"
      else if behind.length != port.length + 1 then
        .error (if behind.head? == some ':' then "too many colons in address"
          else "missing port in address")
      else if inner.contains '[' then .error "unexpected '[' in address"
      else if behind.contains ']' then .error "unexpected ']' in address"
      else .ok (String.ofList host, String.ofList port)
    | _ => unbracketed

/-- Names of ports. -/
def namedPorts : List String :=
  ["domain", "ftp", "ftps", "gopher", "http", "https", "imap2", "imap3", "imaps", "pop3", "pop3s",
    "smtp", "submissions", "ssh", "telnet"]

/-- What is wrong with a port. -/
def portFault? (port : String) : Option String :=
  let digits := match port.toList with
    | '+' :: ds => ds
    | '-' :: ds => ds
    | ds => ds
  if digits.all Char.isDigit then
    let n := digits.foldl (fun n d => n * 10 + (d.toNat - 48)) 0
    if (port.startsWith "-" && 0 < n) || 65535 < n then
      some ("address " ++ port ++ ": invalid port")
    else none
  else if namedPorts.contains (String.ofList (port.toList.map Char.toLower)) then none
  else some ("lookup tcp/" ++ port ++ ": unknown port")

/-- A host that needs no look-up. -/
def isKnownHost (host : String) : Bool :=
  let bytes := Text.encode host
  host.isEmpty || host == "localhost" || Url.isVersion4 bytes || Url.isVersion6 bytes

/-- Why an address cannot be listened on. -/
def listenFault? (address : String) : Option String :=
  if address.isEmpty then none
  else
    match hostPort address with
    | .error why => some ("listen tcp: address " ++ address ++ ": " ++ why)
    | .ok (host, port) =>
      match portFault? port with
      | some why => some ("listen tcp: " ++ why)
      | none =>
        if isKnownHost host then none else some ("listen tcp: lookup " ++ host ++ ": no such host")

/-- A record of this part of the program. -/
def serveRecord (message : String) (attrs : List (String × Log.Value)) : Log.Record :=
  { level := .info, message, attrs := ("component", .text "serve") :: attrs }

/-- Serve until the caller gives up. Gives the records on the way. -/
def serve (c : ServerConfig) : List Log.Record × Except Failure Unit :=
  let listening := serveRecord "listening"
    [("addr", .text c.addr), ("path", .text c.path), ("broadcast", .truth c.broadcast)]
  match listenFault? c.addr with
  | some why => ([listening], .error (.context "serve" (.other why)))
  | none => ([listening, serveRecord "shutting down" []], .ok ())

end PollSocket.Cli
