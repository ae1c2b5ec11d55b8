import PollSocket.Text.Hex
import PollSocket.Yaml.Cursor

set_option autoImplicit false

/-!
# Text of scalars

A scalar is written plainly, in quotes of either kind, or as an indented block. Breaks inside plain
and quoted scalars are folded: one break counts as a space, and of several all but the first stay.
Each reader starts at the first character of the scalar and stops behind it.
-/

namespace PollSocket.Yaml

/-- What lies between two words of a plain or quoted scalar. -/
structure Gap where
  /-- Blanks in front of the first break. -/
  blanks : List Char
  /-- A break was passed. -/
  broken : Bool
  /-- The first break, unless it was escaped. -/
  first : Option Char
  /-- Further breaks. -/
  more : List Char
  deriving DecidableEq, Inhabited

/-- Nothing. -/
def Gap.empty : Gap := ⟨[], false, none, []⟩

/-- An escaped break. -/
def Gap.escaped : Gap := ⟨[], true, none, []⟩

/-- What a gap adds to the text. -/
def Gap.folded (g : Gap) : List Char :=
  if !g.broken then g.blanks
  else
    match g.first with
    | none => g.more
    | some '\n' => if g.more.isEmpty then [' '] else g.more
    | some b => b :: g.more

/-- Past blanks and breaks. With an indentation given, no tab may stand in front of it on a new
line. -/
def Cursor.gap? (indent : Option Int) : Nat → Gap → Cursor → Option (Gap × Cursor)
  | 0, g, c => some (g, c)
  | fuel + 1, g, c =>
    match c.rest with
    | [] => some (g, c)
    | x :: _ =>
      if isBlank x then
        if g.broken then
          if x == '\t' && indent.any ((c.column : Int) < ·) then none
          else gap? indent fuel g c.advance
        else gap? indent fuel { g with blanks := g.blanks ++ [x] } c.advance
      else
        match c.nextLine with
        | none => some (g, c)
        | some (b, next) =>
          if g.broken then gap? indent fuel { g with more := g.more ++ [b] } next
          else gap? indent fuel { g with broken := true, first := some b } next

/-! ## Plain scalars -/

/-- Characters that end a plain scalar inside a flow collection. -/
def endsPlainInFlow (c : Char) : Bool :=
  c == ',' || c == '?' || c == '[' || c == ']' || c == '\x7b' || c == '\x7d'

/-- One word of a plain scalar. -/
def plainWord (flow : Bool) : List Char → List Char
  | [] => []
  | x :: rest =>
    if isBlank x || isBreak x then []
    else if x == ':' && endsWord rest.head? then []
    else if flow && endsPlainInFlow x then []
    else x :: plainWord flow rest

/-- A plain scalar, and whether a break was passed behind it. -/
def plainOnto (flow : Bool) (indent : Int) :
    Nat → List Char → Gap → Cursor → Option (List Char × Bool × Cursor)
  | 0, out, g, c => some (out, g.broken, c)
  | fuel + 1, out, g, c =>
    if c.atDocumentMark || c.peek 0 == some '#' then some (out, g.broken, c)
    else
      match plainWord flow c.rest with
      | [] => some (out, g.broken, c)
      | word =>
        let out := out ++ g.folded ++ word
        let c := c.skip word.length
        if c.peek 0 == none || !endsWord (c.peek 0) then some (out, false, c)
        else do
          let (g, c) ← c.gap? (some indent) fuel Gap.empty
          if !flow && (c.column : Int) < indent then some (out, g.broken, c)
          else plainOnto flow indent fuel out g c

/-! ## Quoted scalars -/

/-- The character of an escape of one letter. -/
def escapeChar? : Char → Option Char
  | '0' => some '\x00'
  | 'a' => some '\x07'
  | 'b' => some '\x08'
  | 't' => some '\t'
  | '\t' => some '\t'
  | 'n' => some '\n'
  | 'v' => some '\x0b'
  | 'f' => some '\x0c'
  | 'r' => some '\r'
  | 'e' => some '\x1b'
  | ' ' => some ' '
  | '"' => some '"'
  | '\'' => some '\''
  | '\\' => some '\\'
  | 'N' => some '\u0085'
  | '_' => some '\u00a0'
  | 'L' => some '\u2028'
  | 'P' => some '\u2029'
  | _ => none

/-- Number of hexadecimal digits of an escape by number. -/
def escapeWidth? : Char → Option Nat
  | 'x' => some 2
  | 'u' => some 4
  | 'U' => some 8
  | _ => none

/-- The character with a number given in hexadecimal digits. -/
def charOfHex? (digits : List Char) : Option Char := do
  let n ← digits.foldl (fun acc d => do
    let acc ← acc
    let v ← Text.hexValue? d
    some (acc * 16 + v)) (some 0)
  if (0xD800 ≤ n && n ≤ 0xDFFF) || 0x10FFFF < n then none else some (Char.ofNat n)

/-- Characters of a quoted scalar up to a blank, a break, the closing quote or an escaped break, and
whether it was the last. -/
def quotedWord (single : Bool) : Nat → List Char → Cursor → Option (List Char × Bool × Cursor)
  | 0, out, c => some (out, false, c)
  | fuel + 1, out, c =>
    match c.rest with
    | [] => some (out, false, c)
    | x :: rest =>
      if isBlank x || isBreak x then some (out, false, c)
      else if single then
        if x == '\'' then
          if rest.head? == some '\'' then quotedWord single fuel (out ++ ['\'']) (c.skip 2)
          else some (out, false, c)
        else quotedWord single fuel (out ++ [x]) c.advance
      else if x == '"' then some (out, false, c)
      else if x == '\\' then
        match rest with
        | [] => none
        | e :: more =>
          if isBreak e then some (out, true, c.advance.overBreak)
          else
            match escapeWidth? e with
            | some width => do
              let digits := more.take width
              if digits.length < width then none
              let ch ← charOfHex? digits
              quotedWord single fuel (out ++ [ch]) (c.skip (2 + width))
            | none => do
              let ch ← escapeChar? e
              quotedWord single fuel (out ++ [ch]) (c.skip 2)
      else quotedWord single fuel (out ++ [x]) c.advance

/-- A quoted scalar, from behind its first quote. -/
def quotedOnto (single : Bool) : Nat → List Char → Cursor → Option (List Char × Cursor)
  | 0, _, _ => none
  | fuel + 1, out, c =>
    if c.atDocumentMark || c.peek 0 == none then none
    else do
      let (word, escaped, c) ← quotedWord single c.rest.length [] c
      let out := out ++ word
      if c.peek 0 == some (if single then '\'' else '"') then some (out, c.advance)
      else do
        let (g, c) ← c.gap? none c.rest.length (if escaped then Gap.escaped else Gap.empty)
        quotedOnto single fuel (out ++ g.folded) c

/-! ## Block scalars -/

/-- What happens to the breaks at the end of a block scalar. -/
inductive Chomp where
  | clip
  | strip
  | keep
  deriving DecidableEq, Inhabited

/-- Breaks of empty lines, up to the indentation of the next line that is not empty. An indentation
of zero is one still to be found; then the deepest of these lines decides. -/
def Cursor.blockBreaks? (indent : Nat) :
    Nat → List Char → Nat → Cursor → Option (List Char × Nat × Cursor)
  | 0, breaks, deepest, c => some (breaks, deepest, c)
  | fuel + 1, breaks, deepest, c =>
    let room := if indent = 0 then c.rest.length else indent - c.column
    let spaces := ((c.rest.take room).takeWhile (· == ' ')).length
    let c := c.skip spaces
    let deepest := max deepest c.column
    if (indent = 0 || c.column < indent) && c.peek 0 == some '\t' then none
    else
      match c.nextLine with
      | none => some (breaks, deepest, c)
      | some (b, next) => blockBreaks? indent fuel (breaks ++ [b]) deepest next

/-- Content of a block scalar: its text, the break behind its last line and the breaks after that. -/
def blockLines (literal : Bool) (indent : Nat) :
    Nat → List Char → List Char → List Char → Bool → Cursor →
      Option (List Char × List Char × List Char × Cursor)
  | 0, out, lead, breaks, _, c => some (out, lead, breaks, c)
  | fuel + 1, out, lead, breaks, indented, c =>
    if c.column != indent || c.peek 0 == none then some (out, lead, breaks, c)
    else do
      let blank := (c.peek 0).any isBlank
      let joined :=
        if !literal && !indented && !blank && lead == ['\n'] then
          if breaks.isEmpty then [' '] else []
        else lead
      let (line, c) := c.span fun x => !isBreak x
      let (lead, c) := match c.nextLine with
        | some (b, next) => ([b], next)
        | none => ([], c)
      let (more, _, c) ← c.blockBreaks? indent fuel [] 0
      blockLines literal indent fuel (out ++ joined ++ breaks ++ line) lead more blank c

/-- Marks behind the sign of a block scalar: what to do with its last breaks, and its indentation. -/
def blockMarks? (c : Cursor) : Option (Chomp × Nat × Cursor) :=
  let chomp? : Option Char → Option Chomp
    | some '+' => some .keep
    | some '-' => some .strip
    | _ => none
  let digit? : Option Char → Option Nat
    | some d => if d.isDigit then some (d.toNat - 48) else none
    | none => none
  match chomp? (c.peek 0) with
  | some chomp =>
    match digit? (c.peek 1) with
    | some 0 => none
    | some n => some (chomp, n, c.skip 2)
    | none => some (chomp, 0, c.advance)
  | none =>
    match digit? (c.peek 0) with
    | some 0 => none
    | some n =>
      match chomp? (c.peek 1) with
      | some chomp => some (chomp, n, c.skip 2)
      | none => some (.clip, n, c.advance)
    | none => some (.clip, 0, c)

/-- A block scalar, from behind its sign, inside a block with the given indentation. -/
def block? (literal : Bool) (outer : Int) (c : Cursor) : Option (List Char × Cursor) := do
  let (chomp, increment, c) ← blockMarks? c
  let c := c.overBlanks
  let c := if c.peek 0 == some '#' then c.toLineEnd else c
  if !endsLine (c.peek 0) then none
  let c := c.overBreak
  let fuel := c.rest.length + 1
  let fixed := if increment = 0 then 0 else (max outer 0).toNat + increment
  let (breaks, deepest, c) ← c.blockBreaks? fixed fuel [] 0
  let indent := if fixed = 0 then max deepest (max (outer + 1) 1).toNat else fixed
  let (out, lead, breaks, c) ← blockLines literal indent fuel [] [] breaks false c
  let out := if chomp = .strip then out else out ++ lead
  let out := if chomp = .keep then out ++ breaks else out
  some (out, c)

end PollSocket.Yaml
