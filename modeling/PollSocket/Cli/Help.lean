import PollSocket.Cli.Command

set_option autoImplicit false

/-!
# Help

Help on a command is what it does and how it is used: its line, the commands below it, its flags and
those it inherits, in columns and sorted by name.
-/

namespace PollSocket.Cli

/-- Blanks behind a text up to a width. -/
def padded (s : String) (width : Nat) : String :=
  s ++ String.ofList (List.replicate (width - s.length) ' ')

/-- A flag in the first column. -/
def Flag.column (f : Flag) : String :=
  (match f.letter with
    | some c => "  -" ++ c.toString ++ ", --"
    | none => "      --") ++ f.name ++ if f.hasValue then " string" else ""

/-- Texts in the order of their characters. -/
def sortedBy {α : Type} (key : α → String) (xs : List α) : List α :=
  xs.mergeSort fun a b => decide (key a ≤ key b)

/-- Lines about flags. -/
def flagLines (flags : List Flag) : List String :=
  let width := (flags.map fun f => f.column.length).foldl max 0
  (sortedBy Flag.name flags).map fun f => padded f.column width ++ "   " ++ f.usage

/-- Lines about commands. -/
def commandLines (cs : List Command) : List String :=
  let width := (cs.map fun c => c.name.length).foldl max 11
  (sortedBy Command.name cs).filterMap fun c =>
    if c.available || c.name == "help" then some ("  " ++ padded c.name width ++ " " ++ c.short)
    else none

/-- How a command is used. -/
def Found.usage (f : Found) : String :=
  let c := f.command
  let path := " ".intercalate f.path
  let line := " ".intercalate (f.path.dropLast ++ [c.use]) ++ " [flags]"
  let own := helpFlag c.name :: c.flags
  let blocks : List (List String) :=
    [["Usage:"] ++ (if c.runnable then ["  " ++ line] else []) ++
      (if c.subcommands.isEmpty then [] else ["  " ++ path ++ " [command]"])] ++
    (if c.subcommands.isEmpty then []
      else ["Available Commands:" :: commandLines c.subcommands]) ++
    ["Flags:" :: flagLines own] ++
    (if f.inherited.isEmpty then [] else ["Global Flags:" :: flagLines f.inherited]) ++
    (if c.subcommands.isEmpty then []
      else [["Use \"" ++ path ++ " [command] --help\" for more information about a command."]])
  "\n\n".intercalate (blocks.map fun b => "\n".intercalate b) ++ "\n"

/-- Help on a command. -/
def Found.help (f : Found) : String :=
  (if f.command.long.isEmpty then f.command.short else f.command.long) ++ "\n\n" ++ f.usage

end PollSocket.Cli
