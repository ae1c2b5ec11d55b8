import PollSocket.Text.Quoted

set_option autoImplicit false

/-!
# Log levels

Records below the level of a logger are dropped. Levels are named in any case, with white space
around the name; no name means the level for information.
-/

namespace PollSocket.Log

/-- Weight of a record. -/
inductive Level where
  | debug
  | info
  | warn
  | error
  deriving DecidableEq, Inhabited

/-- Number of a level. -/
def Level.code : Level → Int
  | .debug => -4
  | .info => 0
  | .warn => 4
  | .error => 8

/-- Name of a level. -/
def Level.name : Level → String
  | .debug => "DEBUG"
  | .info => "INFO"
  | .warn => "WARN"
  | .error => "ERROR"

/-- Level with a name, or why there is none. -/
def Level.parse (s : String) : Except String Level :=
  match String.ofList ((Text.trim s).toList.map Text.lower) with
  | "debug" => .ok .debug
  | "info" => .ok .info
  | "" => .ok .info
  | "warn" => .ok .warn
  | "warning" => .ok .warn
  | "error" => .ok .error
  | _ => .error ("unknown log level " ++ Text.quote s)

/-- Truth value of a setting. -/
def truth? (s : String) : Option Bool :=
  if ["1", "t", "T", "TRUE", "true", "True"].contains s then some true
  else if ["0", "f", "F", "FALSE", "false", "False"].contains s then some false
  else none

/-- Level of a process that starts with the given value of the debugging setting, if it is set. -/
def Level.ofSetting (value : Option String) : Level :=
  if value.bind truth? = some true then .debug else .info

end PollSocket.Log
