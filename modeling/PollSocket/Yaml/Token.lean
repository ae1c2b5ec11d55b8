import PollSocket.Text.Utf8
import PollSocket.Yaml.ScalarText

set_option autoImplicit false

/-!
# Tokens of a YAML text

Indentation becomes tokens: a block opens where content starts further right than the block around
it, and closes where content starts further left. A key needs no mark of its own, so whatever may
turn out to be a key is remembered until its colon is met or can no longer follow; the tokens of the
key are then put in front of it.
-/

namespace PollSocket.Yaml

/-- How a scalar is written. -/
inductive Style where
  | plain
  | single
  | double
  | literal
  | folded
  deriving DecidableEq, Inhabited

/-- What a token is. -/
inductive Token.Kind where
  | streamEnd
  | version (major minor : Nat)
  | tagHandle (handle start : String)
  | documentStart
  | documentEnd
  | blockSequenceStart
  | blockMappingStart
  | blockEnd
  | flowSequenceStart
  | flowSequenceEnd
  | flowMappingStart
  | flowMappingEnd
  | blockEntry
  | flowEntry
  | key
  | value
  | alias (name : String)
  | anchor (name : String)
  | tag (handle suffix : String)
  | scalar (text : String) (style : Style)
  deriving DecidableEq, Inhabited

/-- A token and the line it starts on. -/
structure Token where
  kind : Token.Kind
  line : Nat
  deriving DecidableEq, Inhabited

/-- A token that may start a key. -/
structure PossibleKey where
  /-- Nothing but a key can start here. -/
  required : Bool
  /-- Number of the token. -/
  token : Nat
  place : Cursor
  deriving Inhabited

/-- A colon ends a key on the same line, and not too far away. -/
def PossibleKey.reaches (k : PossibleKey) (c : Cursor) : Bool :=
  k.place.line == c.line && c.index ≤ k.place.index + 1024

/-- How deep blocks and flow collections may be nested. -/
def depthLimit : Nat := 10000

/-- A text part of whose tokens are read. -/
structure Lexer where
  cursor : Cursor
  tokens : Array Token
  /-- Number of flow collections that are open. -/
  flow : Nat
  /-- Indentation of the innermost block; `-1` outside all. -/
  indent : Int
  /-- Indentations of the blocks around it. -/
  outer : List Int
  /-- A key may start here. -/
  keyAllowed : Bool
  /-- What may become a key in the innermost collection. -/
  key : Option PossibleKey
  /-- The same for the flow collections around it. -/
  outerKeys : List (Option PossibleKey)
  /-- All tokens are read. -/
  finished : Bool
  deriving Inhabited

namespace Lexer

/-- Nothing is read yet. -/
def start (cs : List Char) : Lexer := ⟨Cursor.start cs, #[], 0, -1, [], true, none, [], false⟩

/-- With one token more, which starts here. -/
def push (x : Lexer) (kind : Token.Kind) : Lexer :=
  { x with tokens := x.tokens.push ⟨kind, x.cursor.line⟩ }

/-- Forget what may have become a key; it is wrong if a key had to be there. -/
def dropKey? (x : Lexer) : Option Lexer :=
  match x.key with
  | some k => if k.required then none else some { x with key := none }
  | none => some x

/-- Remember that what starts here may become a key. -/
def saveKey? (x : Lexer) : Option Lexer :=
  if x.keyAllowed then do
    let required := x.flow == 0 && x.indent == (x.cursor.column : Int)
    let x ← x.dropKey?
    some { x with key := some ⟨required, x.tokens.size, x.cursor⟩ }
  else some x

/-- Close the blocks that are indented further than a column. -/
def closeBlocks (column : Int) (line : Nat) (indent : Int) (tokens : Array Token) :
    List Int → Int × List Int × Array Token
  | [] => (indent, [], tokens)
  | next :: rest =>
    if column < indent then closeBlocks column line next (tokens.push ⟨.blockEnd, line⟩) rest
    else (indent, next :: rest, tokens)

/-- Leave the blocks that are indented further than a column. -/
def leave (x : Lexer) (column : Int) : Lexer :=
  if x.flow = 0 then
    let (indent, outer, tokens) := closeBlocks column x.cursor.line x.indent x.tokens x.outer
    { x with indent, outer, tokens }
  else x

/-- Enter a block at a column if it is indented further than the one around it; its token goes to
the given position. -/
def enter? (x : Lexer) (column position : Nat) (token : Token) : Option Lexer :=
  if x.flow = 0 && x.indent < (column : Int) then
    if depthLimit ≤ x.outer.length then none
    else
      some { x with
        indent := column
        outer := x.indent :: x.outer
        tokens := x.tokens.insertIdxIfInBounds position token }
  else some x

/-- One token of a single mark that starts here. -/
def mark (x : Lexer) (kind : Token.Kind) : Lexer :=
  let x := x.push kind
  { x with cursor := x.cursor.advance }

/-- All tokens are read: close what is open. -/
def finish? (x : Lexer) : Option Lexer := do
  let x := (x.leave (-1))
  let x ← x.dropKey?
  some { x.push .streamEnd with keyAllowed := false, finished := true }

/-! ## Directives and document marks -/

/-- A number of one or two digits. -/
def versionNumber? (c : Cursor) : Option (Nat × Cursor) :=
  let (digits, next) := c.span Char.isDigit
  if digits.isEmpty || 2 < digits.length then none
  else some (digits.foldl (fun n d => n * 10 + (d.toNat - 48)) 0, next)

/-- Characters of a tag. -/
def isTagChar (c : Char) : Bool :=
  isNameChar c || [';', '/', '?', ':', '@', '&', '=', '+', '$', ',', '.', '!', '~', '*', '\'', '(',
    ')', '[', ']', '%'].contains c

/-- Bytes that are given as a percent sign and two hexadecimal digits, as many as there are. -/
def escapedBytes : List Char → List UInt8
  | '%' :: a :: b :: rest =>
    match Text.hexValue? a, Text.hexValue? b with
    | some h, some l => UInt8.ofNat (h * 16 + l) :: escapedBytes rest
    | _, _ => []
  | _ => []

/-- One character given by its bytes. -/
def escapedChar? (c : Cursor) : Option (Char × Cursor) :=
  match escapedBytes (c.rest.take 12) with
  | [] => none
  | a :: more =>
    if a < 0x80 then some (Char.ofNat a.toNat, c.skip 3)
    else (Text.leading? a more).map fun (ch, n) => (ch, c.skip (3 * (n + 1)))

/-- The rest of a tag. -/
def tagRest? : Nat → List Char → Cursor → Option (List Char × Cursor)
  | 0, out, c => some (out, c)
  | fuel + 1, out, c =>
    match c.rest with
    | [] => some (out, c)
    | x :: _ =>
      if x == '%' then do
        let (ch, next) ← escapedChar? c
        tagRest? fuel (out ++ [ch]) next
      else if isTagChar x then tagRest? fuel (out ++ [x]) c.advance
      else some (out, c)

/-- An exclamation mark, a name, and perhaps a second mark. -/
def tagHandle? (c : Cursor) : Option (List Char × Cursor) :=
  if c.peek 0 != some '!' then none
  else
    let (name, next) := c.advance.span isNameChar
    if next.peek 0 == some '!' then some ('!' :: name ++ ['!'], next.advance)
    else some ('!' :: name, next)

/-- What a directive says. -/
def directiveKind? (name : List Char) (c : Cursor) : Option (Token.Kind × Cursor) :=
  let c := c.overBlanks
  match String.ofList name with
  | "YAML" => do
    let (major, c) ← versionNumber? c
    if c.peek 0 != some '.' then none
    let (minor, c) ← versionNumber? c.advance
    some (.version major minor, c)
  | "TAG" => do
    let (handle, c) ← tagHandle? c
    if handle.length != 1 && handle.getLast? != some '!' then none
    if !(c.peek 0).any isBlank then none
    let (start, c) ← tagRest? c.rest.length [] c.overBlanks
    if start.isEmpty || !endsWord (c.peek 0) then none
    some (.tagHandle (String.ofList handle) (String.ofList start), c)
  | _ => none

/-- A line with a directive. -/
def directive? (x : Lexer) : Option Lexer := do
  let x ← (x.leave (-1)).dropKey?
  let (name, c) := x.cursor.advance.span isNameChar
  if name.isEmpty || !endsWord (c.peek 0) then none
  let (kind, c) ← directiveKind? name c
  let c := c.overBlanks
  let c := if c.peek 0 == some '#' then c.toLineEnd else c
  if !endsLine (c.peek 0) then none
  some { x.push kind with cursor := c.overBreak, keyAllowed := false }

/-- The mark that starts or ends a document. -/
def documentMark? (x : Lexer) (kind : Token.Kind) : Option Lexer := do
  let x ← (x.leave (-1)).dropKey?
  some { x.push kind with cursor := x.cursor.skip 3, keyAllowed := false }

/-! ## Collections -/

/-- The start of a flow collection. -/
def openFlow? (x : Lexer) (kind : Token.Kind) : Option Lexer := do
  let x ← x.saveKey?
  if depthLimit ≤ x.flow then none
  some { x.mark kind with
    flow := x.flow + 1, key := none, outerKeys := x.key :: x.outerKeys, keyAllowed := true }

/-- The end of a flow collection. -/
def closeFlow? (x : Lexer) (kind : Token.Kind) : Option Lexer := do
  let x ← x.dropKey?
  let x := match x.outerKeys with
    | k :: rest => { x with flow := x.flow - 1, key := k, outerKeys := rest }
    | [] => x
  some { x.mark kind with keyAllowed := false }

/-- A comma. -/
def flowEntry? (x : Lexer) : Option Lexer := do
  let x ← x.dropKey?
  some { x.mark .flowEntry with keyAllowed := true }

/-- The dash of a block sequence. -/
def blockEntry? (x : Lexer) : Option Lexer := do
  let x ←
    if x.flow = 0 then
      if x.keyAllowed then
        x.enter? x.cursor.column x.tokens.size ⟨.blockSequenceStart, x.cursor.line⟩
      else none
    else some x
  let x ← x.dropKey?
  some { x.mark .blockEntry with keyAllowed := true }

/-- The mark of a key. -/
def keyMark? (x : Lexer) : Option Lexer := do
  let x ←
    if x.flow = 0 then
      if x.keyAllowed then
        x.enter? x.cursor.column x.tokens.size ⟨.blockMappingStart, x.cursor.line⟩
      else none
    else some x
  let x ← x.dropKey?
  some { x.mark .key with keyAllowed := x.flow == 0 }

/-- A colon, behind what turns out to be a key or behind a key with a mark. -/
def valueMark? (x : Lexer) : Option Lexer := do
  let implicit ← match x.key with
    | some k =>
      if k.reaches x.cursor then some (some k)
      else if k.required then none
      else some none
    | none => some none
  match implicit with
  | some k =>
    let tokens := x.tokens.insertIdxIfInBounds k.token ⟨.key, k.place.line⟩
    let x ← { x with tokens }.enter? k.place.column k.token ⟨.blockMappingStart, k.place.line⟩
    some { x.mark .value with key := none, keyAllowed := false }
  | none =>
    let x ←
      if x.flow = 0 then
        if x.keyAllowed then
          x.enter? x.cursor.column x.tokens.size ⟨.blockMappingStart, x.cursor.line⟩
        else none
      else some x
    some { x.mark .value with key := none, keyAllowed := x.flow == 0 }

/-! ## Nodes -/

/-- Name of an anchor or alias. -/
def reference? (x : Lexer) (kind : String → Token.Kind) : Option Lexer := do
  let x ← x.saveKey?
  let (name, c) := x.cursor.advance.span isNameChar
  let ends := endsWord (c.peek 0) ||
    (c.peek 0).any fun y => ['?', ':', ',', ']', '\x7d', '%', '@', '\x60'].contains y
  if name.isEmpty || !ends then none
  some { x.push (kind (String.ofList name)) with cursor := c, keyAllowed := false }

/-- Handle and suffix of a tag. -/
def tagParts? (c : Cursor) : Option (List Char × List Char × Cursor) :=
  if c.peek 1 == some '<' then do
    let (suffix, c) ← tagRest? c.rest.length [] (c.skip 2)
    if suffix.isEmpty || c.peek 0 != some '>' then none
    some ([], suffix, c.advance)
  else do
    let (handle, c) ← tagHandle? c
    if 1 < handle.length && handle.getLast? == some '!' then
      let (suffix, c) ← tagRest? c.rest.length [] c
      if suffix.isEmpty then none
      some (handle, suffix, c)
    else
      let (suffix, c) ← tagRest? c.rest.length (handle.drop 1) c
      some (if suffix.isEmpty then ([], ['!'], c) else (['!'], suffix, c))

/-- A tag. -/
def tag? (x : Lexer) : Option Lexer := do
  let x ← x.saveKey?
  let (handle, suffix, c) ← tagParts? x.cursor
  if !endsWord (c.peek 0) then none
  some { x.push (.tag (String.ofList handle) (String.ofList suffix)) with
    cursor := c, keyAllowed := false }

/-- A scalar in quotes. -/
def quoted? (x : Lexer) (single : Bool) : Option Lexer := do
  let x ← x.saveKey?
  let (text, c) ← quotedOnto single (x.cursor.rest.length + 1) [] x.cursor.advance
  some { x.push (.scalar (String.ofList text) (if single then .single else .double)) with
    cursor := c, keyAllowed := false }

/-- A plain scalar. If it ended behind a break, a key may follow. -/
def plain? (x : Lexer) : Option Lexer := do
  let x ← x.saveKey?
  let (text, broken, c) ←
    plainOnto (0 < x.flow) (x.indent + 1) (x.cursor.rest.length + 1) [] Gap.empty x.cursor
  some { x.push (.scalar (String.ofList text) .plain) with cursor := c, keyAllowed := broken }

/-- A block scalar. -/
def blockScalar? (x : Lexer) (literal : Bool) : Option Lexer := do
  let x ← x.dropKey?
  let (text, c) ← block? literal x.indent x.cursor.advance
  some { x.push (.scalar (String.ofList text) (if literal then .literal else .folded)) with
    cursor := c, keyAllowed := true }

/-! ## The next token -/

/-- A character that starts no plain scalar, except where the next one decides. -/
def isIndicator (c : Char) : Bool :=
  ['-', '?', ':', ',', '[', ']', '\x7b', '\x7d', '#', '&', '*', '!', '|', '>', '\'', '"', '%', '@',
    '\x60'].contains c

/-- A plain scalar may start here. -/
def startsPlain (flow : Bool) (c : Char) (next : Option Char) : Bool :=
  !(isBlank c || isBreak c || isIndicator c) ||
    (c == '-' && !next.any isBlank) ||
    (!flow && (c == '?' || c == ':') && !endsWord next)

/-- Past a comment that ends the line of a token. -/
def overLineComment (x : Lexer) : Lexer := { x with cursor := x.cursor.overLineComment }

/-- The token that starts with a character. -/
def content? (x : Lexer) (c : Char) (next : Option Char) : Option Lexer :=
  let flow := 0 < x.flow
  match c with
  | '[' => (x.openFlow? .flowSequenceStart).map overLineComment
  | '\x7b' => (x.openFlow? .flowMappingStart).map overLineComment
  | ']' => (x.closeFlow? .flowSequenceEnd).map overLineComment
  | '\x7d' => (x.closeFlow? .flowMappingEnd).map overLineComment
  | ',' => x.flowEntry?.map overLineComment
  | '*' => (x.reference? .alias).map overLineComment
  | '&' => (x.reference? .anchor).map overLineComment
  | '!' => x.tag?.map overLineComment
  | '\'' => (x.quoted? true).map overLineComment
  | '"' => (x.quoted? false).map overLineComment
  | _ =>
    if c == '-' && endsWord next then x.blockEntry?
    else if c == '?' && (flow || endsWord next) then x.keyMark?.map overLineComment
    else if c == ':' && (flow || endsWord next) then x.valueMark?.map overLineComment
    else if c == '|' && !flow then x.blockScalar? true
    else if c == '>' && !flow then x.blockScalar? false
    else if startsPlain flow c next then x.plain?
    else none

/-- The next tokens. -/
def step? (x : Lexer) : Option Lexer :=
  let (keyAllowed, cursor) :=
    x.cursor.toContent (0 < x.flow) (2 * x.cursor.rest.length + 1) x.keyAllowed
  let x := { x with keyAllowed, cursor }.leave cursor.column
  match cursor.rest with
  | [] => x.finish?
  | c :: rest =>
    if cursor.column = 0 && c == '%' then x.directive?
    else if cursor.atDocumentMark then
      x.documentMark? (if c == '-' then .documentStart else .documentEnd)
    else x.content? c rest.head?

/-- Tokens up to the end, or up to what is no token; `fuel` bounds the number of steps. -/
def run : Nat → Lexer → Lexer
  | 0, x => x
  | fuel + 1, x =>
    if x.finished then x
    else
      match x.step? with
      | some next => run fuel next
      | none => x

end Lexer

/-- The tokens of a text, as far as they can be read. -/
structure Tokens where
  list : List Token
  /-- The text was read to its end. -/
  complete : Bool
  deriving DecidableEq, Inhabited

/-- The tokens of a text. A text with a character that none may hold has none. -/
def tokens (s : String) : Tokens :=
  let cs := match s.toList with
    | c :: rest => if c == orderMark then rest else c :: rest
    | [] => []
  if cs.all isAdmitted then
    let x := Lexer.run (cs.length + 2) (Lexer.start cs)
    ⟨x.tokens.toList, x.finished⟩
  else ⟨[], false⟩

end PollSocket.Yaml
