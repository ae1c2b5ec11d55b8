set_option autoImplicit false

/-!
# Places in a YAML text

A cursor is a place in a text: what follows it, and how far it is from the start of the text and of
its line. The end of the text counts as a blank wherever a blank ends something.
-/

namespace PollSocket.Yaml

/-- A space or a tab. -/
def isBlank (c : Char) : Bool := c == ' ' || c == '\t'

/-- A character that ends a line. -/
def isBreak (c : Char) : Bool :=
  c == '\r' || c == '\n' || c == '\u0085' || c == '\u2028' || c == '\u2029'

/-- A blank, a break or the end of the text. -/
def endsWord : Option Char → Bool
  | none => true
  | some c => isBlank c || isBreak c

/-- A break or the end of the text. -/
def endsLine : Option Char → Bool
  | none => true
  | some c => isBreak c

/-- A character of a name. -/
def isNameChar (c : Char) : Bool := c.isAlphanum || c == '_' || c == '-'

/-- The mark of byte order. -/
def orderMark : Char := '\ufeff'

/-- A character that a text may hold. -/
def isAdmitted (c : Char) : Bool :=
  let n := c.toNat
  n == 0x09 || n == 0x0A || n == 0x0D || (0x20 ≤ n && n ≤ 0x7E) || n == 0x85 ||
    (0xA0 ≤ n && n ≤ 0xD7FF) || (0xE000 ≤ n && n ≤ 0xFFFD) || 0x10000 ≤ n

/-- A place in a text. -/
structure Cursor where
  rest : List Char
  index : Nat
  line : Nat
  column : Nat
  deriving DecidableEq, Inhabited

namespace Cursor

/-- The start of a text. -/
def start (cs : List Char) : Cursor := ⟨cs, 0, 0, 0⟩

/-- The character at a distance. -/
def peek (c : Cursor) (k : Nat) : Option Char := c.rest[k]?

/-- Past one character of the line. -/
def advance (c : Cursor) : Cursor :=
  match c.rest with
  | [] => c
  | _ :: rest => ⟨rest, c.index + 1, c.line, c.column + 1⟩

/-- Past the given number of characters of the line. -/
def skip (c : Cursor) : Nat → Cursor
  | 0 => c
  | n + 1 => c.advance.skip n

/-- Past a break, with the break as it counts in a text: all but two of them count as a line feed. -/
def nextLine (c : Cursor) : Option (Char × Cursor) :=
  match c.rest with
  | '\r' :: '\n' :: rest => some ('\n', ⟨rest, c.index + 2, c.line + 1, 0⟩)
  | x :: rest =>
    if isBreak x then
      let kept := if x == '\u2028' || x == '\u2029' then x else '\n'
      some (kept, ⟨rest, c.index + 1, c.line + 1, 0⟩)
    else none
  | [] => none

/-- Past a break, if there is one. -/
def overBreak (c : Cursor) : Cursor :=
  match c.nextLine with
  | some (_, next) => next
  | none => c

/-- Past characters of the line that satisfy a test, with those characters. -/
def span (test : Char → Bool) (c : Cursor) : List Char × Cursor :=
  let taken := c.rest.takeWhile test
  let n := taken.length
  (taken, ⟨c.rest.drop n, c.index + n, c.line, c.column + n⟩)

/-- Past spaces and tabs. -/
def overBlanks (c : Cursor) : Cursor := (c.span isBlank).2

/-- At the end of the line. -/
def toLineEnd (c : Cursor) : Cursor := (c.span fun x => !isBreak x).2

/-- The line starts with the mark that starts or ends a document. -/
def atDocumentMark (c : Cursor) : Bool :=
  c.column == 0 &&
    match c.rest with
    | '-' :: '-' :: '-' :: more => endsWord more.head?
    | '.' :: '.' :: '.' :: more => endsWord more.head?
    | _ => false

/-! ## Comments -/

/-- The next comment, if only blanks and breaks lie before it; `fuel` bounds how many. -/
def nextComment? : Nat → Cursor → Option Cursor
  | 0, _ => none
  | fuel + 1, c =>
    match c.rest with
    | [] => none
    | x :: _ =>
      if x == '#' then some c
      else if isBlank x then nextComment? fuel c.advance
      else if isBreak x then nextComment? fuel c.overBreak
      else none

/-- At the end of the last of the comments that follow each other from here; `fuel` bounds their
number. -/
def overComments : Nat → Cursor → Cursor
  | 0, c => c
  | fuel + 1, c =>
    let c := c.toLineEnd
    match nextComment? 511 c with
    | some next => overComments fuel next
    | none => c

/-- At the end of the line, if only a comment is left on it. -/
def overLineComment (c : Cursor) : Cursor :=
  let next := c.overBlanks
  if next.peek 0 == some '#' then next.toLineEnd else c

/-- At the next character that is neither blank nor break nor in a comment, and whether an implicit
key may start there. A tab does not count as a blank where such a key may start. -/
def toContent (flow : Bool) : Nat → Bool → Cursor → Bool × Cursor
  | 0, allowed, c => (allowed, c)
  | fuel + 1, allowed, c =>
    match c.rest with
    | [] => (allowed, c)
    | x :: _ =>
      if c.column == 0 && x == orderMark then toContent flow fuel allowed c.advance
      else if x == ' ' || (x == '\t' && (flow || !allowed)) then
        toContent flow fuel allowed c.advance
      else if x == '#' then toContent flow fuel allowed (overComments fuel c)
      else if isBreak x then toContent flow fuel (allowed || !flow) c.overBreak
      else (allowed, c)

end Cursor

end PollSocket.Yaml
