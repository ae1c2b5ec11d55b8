import PollSocket.Failure
import PollSocket.Header
import PollSocket.Json.Reader
import PollSocket.Json.Writer
import PollSocket.Text.Utf8

set_option autoImplicit false

/-!
# Messages on the wire

A handshake answers with the session id. A drain carries the session id, the protocol and the
messages of the client, and is answered with the messages for the client.

A body is decoded member by member. Names match up to case, members with other names are skipped,
and a member of the wrong type spoils the body. `null` leaves a text as it is and takes a list away.
A list that is given again is written over the cells of the one before: an item `null` leaves the
text that its cell holds, also one from beyond the end of the last list.
-/

namespace PollSocket

/-- Header field with the session id. -/
def sessionField : String := "Pseudo-WebSocket"

/-- Header field with the protocol. -/
def protocolField : String := "Pseudo-WebSocket-Protocol"

/-- Protocol of a client that names none. -/
def defaultProtocol : String := "undefined"

/-- Session id of a client that has none. -/
def nullSession : String := "null"

/-- Content type of all bodies. -/
def jsonContent : String := "application/json"

/-- One exchange: a request and what it carries. -/
structure Exchange where
  url : String
  method : String
  contentType : String
  header : Header
  body : Option (List UInt8)

/-- Exchange of a session. -/
def Exchange.ofSession (url session protocol : String) (body : Option (List UInt8)) : Exchange where
  url := url
  method := "POST"
  contentType := jsonContent
  header := (({} : Header).set sessionField session).set protocolField protocol
  body := body

/-- A text with the scheme `old` gets the scheme `new`. -/
def replaceScheme? (old new address : String) : Option String :=
  if old.toList.isPrefixOf address.toList then
    some (new ++ String.ofList (address.toList.drop old.toList.length))
  else none

/-- Address of the exchanges of a socket address. -/
def httpUrl (address : String) : String :=
  (replaceScheme? "ws://" "http://" address).getD
    ((replaceScheme? "wss://" "https://" address).getD address)

/-- Socket address of an address of exchanges. -/
def webSocketUrl (address : String) : String :=
  (replaceScheme? "http://" "ws://" address).getD
    ((replaceScheme? "https://" "wss://" address).getD address)

/-! ## Fields of a body -/

/-- A list field: the texts its cells hold, and how many of them belong to the list, if there is
one. -/
structure ListField where
  cells : List String := []
  size : Option Nat := none
  deriving DecidableEq, Inhabited

namespace ListField

/-- The list, if there is one. -/
def items? (f : ListField) : Option (List String) := f.size.map fun n => f.cells.take n

/-- Writes items over cells, `done` cells (last first) being written already. -/
def fill (done : List String) : List String → List Json.Value → Option (List String)
  | cells, [] => some (done.reverse ++ cells)
  | cells, .string s :: more => fill (s :: done) cells.tail more
  | cells, .null :: more => fill (cells.headD "" :: done) cells.tail more
  | _, _ => none

/-- Takes a value given for the field. -/
def read (f : ListField) : Json.Value → Option ListField
  | .null => some {}
  | .array [] => some { cells := [], size := some 0 }
  | .array items => (fill [] f.cells items).map fun cells => { cells, size := some items.length }
  | _ => none

end ListField

/-- Takes a value given for a text field. -/
def readText (s : String) : Json.Value → Option String
  | .null => some s
  | .string t => some t
  | _ => none

/-- The fields that bodies have. -/
structure Fields where
  session : String := ""
  protocol : String := ""
  messages : ListField := {}
  deriving DecidableEq, Inhabited

/-- Which fields a kind of body has; members of other names are skipped. -/
structure BodyShape where
  session : Bool
  protocol : Bool
  messages : Bool

/-- Body of a handshake response. -/
def BodyShape.handshakeResponse : BodyShape := ⟨true, false, false⟩

/-- Body of a drain request. -/
def BodyShape.drainRequest : BodyShape := ⟨true, true, true⟩

/-- Body of a drain response. -/
def BodyShape.drainResponse : BodyShape := ⟨false, false, true⟩

/-- Takes one member. -/
def Fields.readMember (shape : BodyShape) (f : Fields) (member : String × Json.Value) :
    Option Fields :=
  if shape.session && Text.sameFolded member.1 "sessionId" then
    (readText f.session member.2).map fun s => { f with session := s }
  else if shape.protocol && Text.sameFolded member.1 "protocol" then
    (readText f.protocol member.2).map fun s => { f with protocol := s }
  else if shape.messages && Text.sameFolded member.1 "messages" then
    (f.messages.read member.2).map fun l => { f with messages := l }
  else some f

/-- Takes members in order. -/
def Fields.readMembers (shape : BodyShape) (f : Fields) :
    List (String × Json.Value) → Option Fields
  | [] => some f
  | m :: more =>
    match f.readMember shape m with
    | some f => f.readMembers shape more
    | none => none

/-- Fields of a value: `null` has none of them, and only objects have any. -/
def Fields.ofValue (shape : BodyShape) : Json.Value → Option Fields
  | .null => some {}
  | .object members => Fields.readMembers shape {} members
  | _ => none

/-! ## Bodies -/

/-- A drain, as the server sees it. -/
structure DrainRequest where
  session : String
  protocol : String
  messages : List String
  deriving DecidableEq, Inhabited

/-- Bodies are read up to this many bytes. -/
def maxBody : Nat := 8388608

/-- Session id in the body of a handshake response. -/
def decodeHandshakeResponse (body : List UInt8) : Except Malformed String :=
  match (Json.whole? (Text.decode body)).bind (Fields.ofValue .handshakeResponse) with
  | none => .error .undecodable
  | some f => if f.session.isEmpty then .error .noSession else .ok f.session

/-- Messages in the body of a drain response. -/
def decodeDrainResponse (body : List UInt8) : Except Malformed (List String) :=
  match (Json.whole? (Text.decode body)).bind (Fields.ofValue .drainResponse) with
  | none => .error .undecodable
  | some f =>
    match f.messages.items? with
    | none => .error .noMessages
    | some messages => .ok messages

/-- Drain request of which `body` holds the first value. -/
def decodeDrainRequest? (body : List UInt8) : Option DrainRequest :=
  match (Json.first? (Text.decode body)).bind fun v => Fields.ofValue .drainRequest v.1 with
  | none => none
  | some f => some ⟨f.session, f.protocol, f.messages.items?.getD []⟩

/-- List of texts as a value. -/
def valueOfTexts (messages : List String) : Json.Value := .array (messages.map .string)

/-- Body of a drain request. -/
def DrainRequest.body (r : DrainRequest) : List UInt8 :=
  Text.encode (Json.Value.write .message (.object [("sessionId", .string r.session),
    ("protocol", .string r.protocol), ("messages", valueOfTexts r.messages)]))

/-- Body of a handshake response, with a line end. -/
def handshakeResponseBody (session : String) : List UInt8 :=
  Text.encode (Json.Value.write .message (.object [("sessionId", .string session)]) ++ "\n")

/-- Body of a drain response, with a line end. -/
def drainResponseBody (messages : List String) : List UInt8 :=
  Text.encode (Json.Value.write .message (.object [("messages", valueOfTexts messages)]) ++ "\n")

end PollSocket
