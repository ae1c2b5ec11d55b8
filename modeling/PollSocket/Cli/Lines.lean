import PollSocket.Text.Utf8

set_option autoImplicit false

/-!
# Lines of standard input

Input is read line by line. A line ends at a line feed, a carriage return in front of it is not part
of the line, and the last line may lack its end. Reading stops for good at a line that does not fit
into the reader's buffer.
-/

namespace PollSocket.Cli

/-- Number of bytes that a line may have, its end apart. -/
def maxLine : Nat := 65535

/-- Pieces of a text between line feeds. -/
def pieces (cs : List Char) : List (List Char) :=
  cs.foldr (fun c acc =>
    if c == '\n' then [] :: acc
    else
      match acc with
      | p :: more => (c :: p) :: more
      | [] => [[c]]) [[]]

/-- The pieces that are lines: all but an empty last one. -/
def rawLines (s : String) : List (List Char) :=
  let ps := pieces s.toList
  if ps.getLast? == some [] then ps.dropLast else ps

/-- A line fits into the buffer. -/
def fits (line : List Char) : Bool := Text.byteLength (String.ofList line) ≤ maxLine

/-- A line without a carriage return at its end. -/
def withoutReturn (line : List Char) : List Char :=
  if line.getLast? == some '\r' then line.dropLast else line

/-- All lines of a text. -/
def allLines (s : String) : List String :=
  (rawLines s).map fun l => String.ofList (withoutReturn l)

/-- The lines that a reader gets: those in front of the first that does not fit. -/
def readLines (s : String) : List String :=
  ((rawLines s).takeWhile fits).map fun l => String.ofList (withoutReturn l)

end PollSocket.Cli
