import PollSocket.Log.Line

set_option autoImplicit false

/-!
# Where log lines go

Lines go to a buffer, or to standard error and perhaps also to a file. The file is opened when the
first line is written, and reopened after it was closed. A line that would make it too large has the
file renamed first, and a line that is larger than the file may be is not written to it.
-/

namespace PollSocket.Log

/-- A log file. -/
structure File where
  path : String
  /-- Largest size in bytes. -/
  limit : Nat
  deriving DecidableEq, Inhabited

/-- Where lines go. -/
inductive Target where
  | buffer
  | standardError (file : Option File)
  deriving DecidableEq, Inhabited

/-- Text of a stored file, and its size with the time of every line. -/
structure Stored where
  path : String
  text : String
  size : Nat
  deriving DecidableEq, Inhabited

/-- The process-wide logger with the files it has written. -/
structure Sink where
  level : Level := .info
  form : Form := .pairs
  target : Target := .buffer
  /-- What lines say on where an exchange failed. -/
  trace : Backtrace := fun _ => ""
  /-- The file that is to be closed with the logger. -/
  owned : Option File := none
  files : List Stored := []
  /-- Number of files that were renamed. -/
  renamed : Nat := 0
  /-- What has reached the buffer. -/
  output : List String := []
  /-- What has reached standard error. -/
  errors : List String := []
  deriving Inhabited

/-- What can be set. -/
structure Settings where
  level : String := ""
  json : Bool := false
  file : String := ""
  maxSizeMb : Int := 0
  maxBackups : Int := 0
  deriving DecidableEq, Inhabited

/-- Path without parts that mean nothing. -/
def cleanPath (path : String) : String :=
  "/".intercalate ((path.splitOn "/").filter fun p => p != "" && p != ".")

/-- Bytes of a megabyte. -/
def megabyte : Nat := 1048576

/-- Largest size of a file when none is set. -/
def defaultMaxSizeMb : Int := 10

namespace Sink

/-- A stored file. -/
def stored? (s : Sink) (path : String) : Option Stored := s.files.find? fun f => f.path == path

/-- Text of a file. -/
def read? (s : Sink) (path : String) : Option String := (s.stored? (cleanPath path)).map (·.text)

/-- Puts a file in the place of one with the same path. -/
def store (s : Sink) (f : Stored) : Sink :=
  { s with files := s.files.filter (fun g => g.path != f.path) ++ [f] }

/-- Adds a line to a file. -/
def append (s : Sink) (f : File) (line : String) : Sink :=
  let size := line.utf8ByteSize + s.form.stampSize
  if f.limit < size then s
  else
    match s.stored? f.path with
    | none => s.store ⟨f.path, line, size⟩
    | some old =>
      if f.limit < old.size + size then
        let n := s.renamed + 1
        let s := s.store { old with path := old.path ++ "-" ++ toString n }
        { s with renamed := n }.store ⟨f.path, line, size⟩
      else s.store ⟨f.path, old.text ++ line, old.size + size⟩

/-- Records something, unless it is below the level. -/
def record (s : Sink) (r : Record) : Sink :=
  if r.level.code < s.level.code then s
  else
    let line := r.line s.trace s.form
    match s.target with
    | .buffer => { s with output := s.output ++ [line] }
    | .standardError file =>
      let s := { s with errors := s.errors ++ [line] }
      match file with
      | none => s
      | some f => s.append f line

/-- Configures the logger; a level that is no level leaves all as it is. -/
def configure (s : Sink) (c : Settings) : Sink × Except Failure Unit :=
  match if c.level.isEmpty then .ok s.level else Level.parse c.level with
  | .error m => (s, .error (.other m))
  | .ok level =>
    let size := if c.maxSizeMb ≤ 0 then defaultMaxSizeMb else c.maxSizeMb
    let file : Option File :=
      if c.file.isEmpty then none else some ⟨cleanPath c.file, size.toNat * megabyte⟩
    ({ s with
      level
      form := if c.json then .json else .pairs
      target := .standardError file
      owned := file }, .ok ())

/-- Lets lines go to the buffer. -/
def toBuffer (s : Sink) (json : Bool) : Sink :=
  { s with form := if json then .json else .pairs, target := .buffer }

/-- Debugging is on. -/
def enabled (s : Sink) : Bool := s.level.code ≤ Level.debug.code

/-- Number of entries in the directory: files, and directories with files. -/
def entries (s : Sink) : Nat :=
  (s.files.map fun f => (f.path.splitOn "/").headD "").eraseDups.length

end Sink

end PollSocket.Log
