import PollSocket.Header

set_option autoImplicit false

/-!
# Requests for a framed connection

A request asks for a framed connection by naming `upgrade` among its connection tokens and
`websocket` among those it upgrades to. It has to be a GET of version 13 with a key of 16 bytes, and
the connection has to be one that can be taken over.
-/

namespace PollSocket.Server

/-- Blanks around tokens. -/
def isTokenBlank (c : Char) : Bool := c == ' ' || c == '\t'

/-- The list holds the lower-case `token`: tokens stand between commas, and a list is read up to
the first thing that is none. The first argument bounds the number of tokens. -/
def listHasToken (token : String) : Nat → List Char → Bool
  | 0, _ => false
  | fuel + 1, cs =>
    let cs := cs.dropWhile isTokenBlank
    let t := cs.takeWhile isTokenChar
    let rest := (cs.dropWhile isTokenChar).dropWhile isTokenBlank
    if t.isEmpty then false
    else
      match rest with
      | [] => String.ofList (t.map Text.lowerAscii) == token
      | ',' :: more =>
        String.ofList (t.map Text.lowerAscii) == token || listHasToken token fuel more
      | _ => false

/-- Some value of the field holds the token. -/
def fieldHasToken (h : Header) (name token : String) : Bool :=
  (h.values name).any fun v => listHasToken token (v.toList.length + 1) v.toList

/-- The request asks for a framed connection. -/
def asksUpgrade (h : Header) : Bool :=
  fieldHasToken h "Connection" "upgrade" && fieldHasToken h "Upgrade" "websocket"

/-- Digits of the encoding of keys. -/
def isBase64Digit (c : Char) : Bool :=
  ('A' ≤ c && c ≤ 'Z') || ('a' ≤ c && c ≤ 'z') || ('0' ≤ c && c ≤ '9') || c == '+' || c == '/'

/-- A key is written as 22 digits and two fillers; line ends do not count. -/
def isUpgradeKey (key : String) : Bool :=
  let cs := key.toList.filter fun c => c != '\r' && c != '\n'
  cs.length == 24 && (cs.take 22).all isBase64Digit && cs.drop 22 == ['=', '=']

/-- Why a framed connection is refused. -/
inductive UpgradeRefusal where
  | method
  | version
  | key
  | connection
  deriving DecidableEq, Inhabited

/-- Status of a refusal. -/
def UpgradeRefusal.status : UpgradeRefusal → Nat
  | .method => 405
  | .version => 400
  | .key => 400
  | .connection => 500

/-- Text of the answer to a refusal. -/
def UpgradeRefusal.answer : UpgradeRefusal → String
  | .method => "Method Not Allowed"
  | .version => "Bad Request"
  | .key => "Bad Request"
  | .connection => "Internal Server Error"

/-- Wording of a refusal. -/
def UpgradeRefusal.message : UpgradeRefusal → String
  | .method =>
    "websocket: the client is not using the websocket protocol: request method is not GET"
  | .version =>
    "websocket: unsupported version: 13 not found in 'Sec-Websocket-Version' header"
  | .key => "websocket: not a websocket handshake: 'Sec-WebSocket-Key' header must be Base64 " ++
    "encoded value of 16-byte in length"
  | .connection => "websocket: response does not implement http.Hijacker"

/-- Refusal of a request for a framed connection over a connection that cannot be taken over. -/
def upgradeRefusal (method : String) (h : Header) : UpgradeRefusal :=
  if method != "GET" then .method
  else if !fieldHasToken h "Sec-Websocket-Version" "13" then .version
  else if !isUpgradeKey (h.get "Sec-Websocket-Key") then .key
  else .connection

end PollSocket.Server
