set_option autoImplicit false

/-!
# Session ids and ready states
-/

namespace PollSocket

/-- Token by which the server knows a client, once it has assigned one. -/
inductive SessionId where
  | unassigned
  | assigned (id : String)
  deriving DecidableEq, Inhabited

/-- The server has assigned an id. -/
def SessionId.isAssigned : SessionId → Bool
  | .unassigned => false
  | .assigned _ => true

/-- Form in headers and bodies. -/
def SessionId.wire : SessionId → String
  | .unassigned => "null"
  | .assigned id => id

/-- Life of a socket. -/
inductive ReadyState where
  | connecting
  | opened
  | closed
  deriving DecidableEq, Inhabited

/-- Number of a ready state. -/
def ReadyState.code : ReadyState → Int
  | .connecting => 0
  | .opened => 1
  | .closed => 2

/-- Name of the ready state with a number; other numbers have a name too. -/
def ReadyState.nameOf (n : Int) : String :=
  if n = 0 then "connecting"
  else if n = 1 then "open"
  else if n = 2 then "closed"
  else "ReadyState(" ++ toString n ++ ")"

/-- Name of a ready state. -/
def ReadyState.name (s : ReadyState) : String := nameOf s.code

end PollSocket
