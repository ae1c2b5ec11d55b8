set_option autoImplicit false

/-!
# Files of a working directory

Files are given by their paths below the working directory, and the directories are those that the
paths pass through. A path to read is resolved one name at a time.
-/

namespace PollSocket

/-- Files of a working directory: paths and contents. -/
structure Files where
  entries : List (String × String)
  deriving DecidableEq, Inhabited

namespace Files

/-- The names that a path passes through. -/
def names (path : String) : List String := (path.splitOn "/").filter fun n => n != "" && n != "."

/-- What a path leads to. -/
inductive Entry where
  | file (content : String)
  | directory
  | missing
  /-- A file stands where a directory is needed. -/
  | blocked
  deriving DecidableEq, Inhabited

/-- What the names from the working directory on lead to. -/
def entry (fs : Files) (place : List String) : Entry :=
  match fs.entries.find? fun (p, _) => names p == place with
  | some (_, content) => .file content
  | none =>
    if place.isEmpty || fs.entries.any fun (p, _) => (names p).take place.length == place then .directory
    else .missing

/-- Follow names from a directory on. -/
def walk (fs : Files) : List String → List String → Entry
  | here, [] => fs.entry here
  | here, n :: rest =>
    let next := if n == ".." then here.dropLast else here ++ [n]
    match fs.entry next with
    | .directory => walk fs next rest
    | .file content => if rest.isEmpty then .file content else .blocked
    | e => e

/-- What a path leads to. A path from the root leads out of the working directory. -/
def find (fs : Files) (path : String) : Entry :=
  if path.isEmpty then .missing
  else if path.startsWith "/" then if (names path).isEmpty then .directory else .missing
  else
    match fs.walk [] (names path) with
    | .file content => if path.endsWith "/" then .blocked else .file content
    | e => e

/-- Content of a file, or why it cannot be read. -/
def read (fs : Files) (path : String) : Except String String :=
  match fs.find path with
  | .file content => .ok content
  | .directory => .error ("read " ++ path ++ ": is a directory")
  | .missing => .error ("open " ++ path ++ ": no such file or directory")
  | .blocked => .error ("open " ++ path ++ ": not a directory")

end Files

end PollSocket
