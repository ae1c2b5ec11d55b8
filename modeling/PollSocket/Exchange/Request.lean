import PollSocket.Text.Base64
import PollSocket.Url
import PollSocket.Wire

set_option autoImplicit false

/-!
# Requests and their results

An exchange becomes a request: its method and its address are checked, the fields that all exchanges
share come first, and credentials in the address become a field of their own. What comes back is
either a body, if the status is one of success, or a failure.
-/

namespace PollSocket

/-- A request, ready to be sent. -/
structure Request where
  method : String
  url : Url
  header : Header
  body : List UInt8

/-- Method of an exchange. -/
def Exchange.verb (x : Exchange) : String := if x.method.isEmpty then "POST" else x.method

/-- Bytes that an exchange carries. -/
def Exchange.bytes (x : Exchange) : List UInt8 := x.body.getD []

/-- Line of the log for an exchange whose request is sent. -/
def Exchange.sentLine (x : Exchange) : String :=
  "HTTPExchanger: " ++ x.verb ++ " " ++ x.url ++ " (" ++ toString x.bytes.length ++ " bytes)"

/-- Field with the credentials of an address. -/
def Url.authorization? (u : Url) : Option String :=
  u.user.map fun info =>
    "Basic " ++ String.ofList (Text.base64 (info.name ++ 0x3A :: info.password.getD []))

/-- The request of an exchange, with the fields that all exchanges share. -/
def Exchange.request (shared : Header) (x : Exchange) : Except Failure Request :=
  if !x.verb.toList.all isTokenChar then
    .error (.exchange .request "build request"
      (.other ("net/http: invalid method " ++ Text.quote x.verb)))
  else
    match Url.parse x.url with
    | .error f => .error (.exchange .request "build request" (.address (Url.faultMessage x.url f)))
    | .ok u =>
      let header := (({} : Header).addAll shared).addAll x.header
      let header :=
        if x.contentType.isEmpty then header else header.set "Content-Type" x.contentType
      let header :=
        if (header.get "Authorization").isEmpty then
          match u.authorization? with
          | some value => header.set "Authorization" value
          | none => header
        else header
      .ok ⟨x.verb, { u with host := Url.withoutEmptyPort u.host }, header, x.bytes⟩

/-- How a failed request is named: its method with small letters behind the first. -/
def operation (method : String) : String :=
  match method.toList with
  | [] => "Get"
  | c :: rest => String.ofList (c :: rest.map Text.lowerAscii)

/-- Failure of a request without a response. -/
def Request.failure (r : Request) (written : String) (cause : Failure) : Failure :=
  .exchange .response (r.method ++ " " ++ written)
    (.context (operation r.method ++ " " ++ Text.quote r.url.shown) cause)

/-- What comes back for a request. -/
inductive Reply where
  /-- There is no response. -/
  | none (cause : Failure)
  /-- A response; its body may break off. -/
  | response (code : Int) (status : String) (body : List UInt8) (broken : Option String)
  deriving Inhabited

/-- A status of success. -/
def isSuccess (code : Int) : Bool := 200 ≤ code && code ≤ 299

/-- Result of an exchange with the given request. Only the first bytes of a body count. -/
def Reply.result (r : Request) (written : String) : Reply → Except Failure (List UInt8)
  | .none cause => .error (r.failure written cause)
  | .response code status body broken =>
    let kept := body.take maxBody
    match if kept.length < maxBody then broken else Option.none with
    | some cause => .error (.exchange .body "read response" (.other cause))
    | Option.none =>
      if isSuccess code then .ok kept
      else .error (.status code status (Text.trim (Text.decodeRuns Text.replacement kept)))

end PollSocket
