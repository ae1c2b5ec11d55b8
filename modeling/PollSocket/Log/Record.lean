import PollSocket.Failure
import PollSocket.Log.Level

set_option autoImplicit false

/-!
# Log records
-/

namespace PollSocket.Log

/-- Value of an attribute. -/
inductive Value where
  | text (s : String)
  | number (n : Int)
  | truth (b : Bool)
  /-- A number that need not be whole, by its bits. -/
  | real (bits : UInt64)
  | nothing
  | failure (f : Failure)
  deriving DecidableEq, Inhabited

/-- A record: attributes keep their order and may repeat a name. -/
structure Record where
  level : Level
  message : String
  attrs : List (String × Value) := []
  deriving DecidableEq, Inhabited

end PollSocket.Log
