import PollSocket.Config.Reading
import PollSocket.Files

set_option autoImplicit false

/-!
# Loading a configuration

A configuration is read from a file; what is wrong with it is reported with the path of the file.
-/

namespace PollSocket.Config

/-- Why a configuration was not loaded. -/
inductive LoadProblem where
  /-- The file cannot be read. -/
  | file (path cause : String)
  /-- The file holds no proper configuration. -/
  | content (path : String) (problem : Problem)
  deriving DecidableEq, Inhabited

/-- Wording of a problem. -/
def LoadProblem.message : LoadProblem → String
  | .file path cause => "config load failed (" ++ path ++ "): " ++ cause
  | .content path problem => "config " ++ path ++ ": " ++ problem.message

/-- Load a configuration. -/
def load (fs : Files) (path : String) : Except LoadProblem Config :=
  match fs.read path with
  | .error cause => .error (.file path cause)
  | .ok text =>
    match parse text with
    | .error problem => .error (.content path problem)
    | .ok c => .ok c

end PollSocket.Config
