set_option autoImplicit false

/-!
# JSON values

Numbers are kept as written: nothing in the message format has a number in it, so that only their
form matters. Members of an object keep their order and may repeat a name.
-/

namespace PollSocket.Json

/-- A JSON value. -/
inductive Value where
  | null
  | bool (b : Bool)
  | number (text : String)
  | string (text : String)
  | array (items : List Value)
  | object (members : List (String × Value))
  deriving Inhabited

end PollSocket.Json
