import PollSocket.Cli.Program

set_option autoImplicit false

/-!
# Command line

The outer layer of the program: it reads the configuration file and standard input, runs the program
and prints what it leaves behind.
-/

namespace PollSocket.Cli

/-- Path of the configuration file that the arguments name. -/
def configPath? (args : List String) : Option String :=
  match rootCommand.find args with
  | .error _ => none
  | .ok f =>
    match f.parse with
    | .error _ => none
    | .ok p => p.value? "config"

/-- Content of a file, if it can be read. -/
def readFile? (path : String) : IO (Option String) := do
  try
    let text ← IO.FS.readFile path
    return some text
  catch _ => return none

/-- All of standard input. -/
def readInput : IO String := do
  let stdin ← IO.getStdin
  let mut text := ""
  repeat
    let line ← stdin.getLine
    if line.isEmpty then break
    text := text ++ line
  return text

end PollSocket.Cli

open PollSocket

/-- The program. -/
def main (args : List String) : IO UInt32 := do
  let path := (Cli.configPath? args).getD ""
  let files : Files := match ← Cli.readFile? path with
    | some text => ⟨[(path, text)]⟩
    | none => ⟨[]⟩
  let input ← if args.contains "connect" then Cli.readInput else pure ""
  let outcome := Cli.run { files, input } args
  IO.print outcome.output
  for line in outcome.log.errors do
    IO.eprint line
  match outcome.result with
  | .ok _ => return 0
  | .error problem =>
    IO.eprintln ("Error: " ++ problem.message)
    return 1
