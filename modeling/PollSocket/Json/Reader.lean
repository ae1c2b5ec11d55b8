import PollSocket.Text.Hex
import PollSocket.Json.Value

set_option autoImplicit false

/-!
# Reading JSON

The reader is a pushdown automaton that takes one character at a time: a mode, the containers that
are still open (innermost first), and their number, which is limited. `first?` reads the first
value of a text and gives what follows it; `whole?` asks that only blanks follow.
-/

namespace PollSocket.Json

/-- Containers may be nested this deep. -/
def maxDepth : Nat := 10000

/-- Blanks between the parts of a value. -/
def isSpace (c : Char) : Bool := c == ' ' || c == '\t' || c == '\n' || c == '\r'

/-- Part of a number the last character belongs to. -/
inductive NumberPart where
  | minus
  | zero
  | digits
  | point
  | fraction
  | mark
  | sign
  | exponent
  deriving DecidableEq

/-- A number may end here. -/
def NumberPart.complete : NumberPart → Bool
  | .zero | .digits | .fraction | .exponent => true
  | .minus | .point | .mark | .sign => false

/-- Part the next character of a number belongs to, if it continues the number. -/
def NumberPart.next? (p : NumberPart) (c : Char) : Option NumberPart :=
  let digit := '0' ≤ c && c ≤ '9'
  let mark := c == 'e' || c == 'E'
  match p with
  | .minus => if c == '0' then some .zero else if digit then some .digits else none
  | .zero => if c == '.' then some .point else if mark then some .mark else none
  | .digits =>
    if digit then some .digits else if c == '.' then some .point
    else if mark then some .mark else none
  | .point => if digit then some .fraction else none
  | .fraction => if digit then some .fraction else if mark then some .mark else none
  | .mark =>
    if c == '+' || c == '-' then some .sign else if digit then some .exponent else none
  | .sign => if digit then some .exponent else none
  | .exponent => if digit then some .exponent else none

/-- A container that is still open, with what it holds so far (last first). -/
inductive Container where
  | array (items : List Value)
  | object (members : List (String × Value)) (name : String)

/-- What the next character is read as. Strings are kept as the code units read so far, last first:
a character stands for its code point, an escape for the code unit it names. -/
inductive Mode where
  /-- A value starts. After `[` the array may close instead. -/
  | value (afterOpen : Bool)
  /-- A member name starts. After `\x7b` the object may close instead. -/
  | name (afterOpen : Bool)
  /-- The colon after a member name. -/
  | colon
  /-- A comma or the end of the innermost container. -/
  | next
  /-- Inside a string, which may be a member name. -/
  | text (isName : Bool) (units : List Nat)
  /-- After a backslash. -/
  | escape (isName : Bool) (units : List Nat)
  /-- Inside `\uhhhh` with `left` digits to come. -/
  | hex (isName : Bool) (units : List Nat) (left : Nat) (code : Nat)
  /-- Inside a literal name whose other characters are `rest`. -/
  | word (rest : List Char) (value : Value)
  /-- Inside a number with the characters `acc` (last first). -/
  | number (part : NumberPart) (acc : List Char)
  /-- The value is complete. -/
  | done (value : Value)
  /-- No value starts with the characters read. -/
  | failed

/-- State of the reader. -/
structure Reader where
  mode : Mode
  /-- Containers that are open, innermost first. -/
  stack : List Container
  /-- Their number. -/
  depth : Nat

/-- Nothing read yet. -/
def Reader.start : Reader := ⟨.value false, [], 0⟩

/-- The reader has its answer. -/
def Reader.over (r : Reader) : Bool :=
  match r.mode with
  | .done _ | .failed => true
  | _ => false

/-- Refusal. -/
def Reader.fail (r : Reader) : Reader := { r with mode := .failed }

/-- Continues with a complete value: it goes into the innermost container, or it is the answer. -/
def Reader.deliver (r : Reader) (v : Value) : Reader :=
  match r.stack with
  | [] => { r with mode := .done v }
  | .array items :: more => { r with mode := .next, stack := .array (v :: items) :: more }
  | .object members name :: more =>
    { r with mode := .next, stack := .object ((name, v) :: members) "" :: more }

/-- Opens a container. -/
def Reader.enter (r : Reader) (c : Container) (mode : Mode) : Reader :=
  if r.depth < maxDepth then ⟨mode, c :: r.stack, r.depth + 1⟩ else r.fail

/-- Closes the innermost container, whose value is `v`. -/
def Reader.leave (r : Reader) (v : Value) : Reader :=
  { r with stack := r.stack.tail, depth := r.depth - 1 }.deliver v

/-- High half of a surrogate pair. -/
def isHighSurrogate (n : Nat) : Bool := 0xD800 ≤ n && n ≤ 0xDBFF

/-- Low half of a surrogate pair. -/
def isLowSurrogate (n : Nat) : Bool := 0xDC00 ≤ n && n ≤ 0xDFFF

/-- Character of a surrogate pair. -/
def ofSurrogates (high low : Nat) : Char :=
  Char.ofNat (0x10000 + (high - 0xD800) * 0x400 + (low - 0xDC00))

/-- Characters in front of `acc` that the code units (last first) stand for: surrogate pairs are
joined, and half of one stands for the replacement character. -/
def charsOfUnits (acc : List Char) : List Nat → List Char
  | [] => acc
  | [n] =>
    (if isHighSurrogate n || isLowSurrogate n then '\ufffd' else Char.ofNat n) :: acc
  | low :: high :: more =>
    if isLowSurrogate low && isHighSurrogate high then
      charsOfUnits (ofSurrogates high low :: acc) more
    else
      charsOfUnits
        ((if isHighSurrogate low || isLowSurrogate low then '\ufffd' else Char.ofNat low) :: acc)
        (high :: more)

/-- Text of the code units (last first). -/
def textOfUnits (units : List Nat) : String := String.ofList (charsOfUnits [] units)

/-- Ends a string. -/
def Reader.endText (r : Reader) (isName : Bool) (units : List Nat) : Reader :=
  if isName then
    match r.stack with
    | .object members _ :: more =>
      { r with mode := .colon, stack := .object members (textOfUnits units) :: more }
    | _ => r.fail
  else r.deliver (.string (textOfUnits units))

/-- A character at which a value starts. -/
def Reader.startValue (r : Reader) (c : Char) : Reader :=
  match c with
  | '\x7b' => r.enter (.object [] "") (.name true)
  | '[' => r.enter (.array []) (.value true)
  | '"' => { r with mode := .text false [] }
  | 't' => { r with mode := .word ['r', 'u', 'e'] (.bool true) }
  | 'f' => { r with mode := .word ['a', 'l', 's', 'e'] (.bool false) }
  | 'n' => { r with mode := .word ['u', 'l', 'l'] .null }
  | '-' => { r with mode := .number .minus ['-'] }
  | '0' => { r with mode := .number .zero ['0'] }
  | c => if '1' ≤ c && c ≤ '9' then { r with mode := .number .digits [c] } else r.fail

/-- A comma or the end of the innermost container. -/
def Reader.afterValue (r : Reader) (c : Char) : Reader :=
  match r.stack with
  | [] => r.fail
  | .array items :: _ =>
    if c == ',' then { r with mode := .value false }
    else if c == ']' then r.leave (.array items.reverse)
    else r.fail
  | .object members _ :: _ =>
    if c == ',' then { r with mode := .name false }
    else if c == '\x7d' then r.leave (.object members.reverse)
    else r.fail

/-- Code unit of a one-letter escape. -/
def shortEscape? (c : Char) : Option Nat :=
  match c with
  | '"' => some 0x22
  | '\\' => some 0x5C
  | '/' => some 0x2F
  | 'b' => some 8
  | 'f' => some 12
  | 'n' => some 10
  | 'r' => some 13
  | 't' => some 9
  | _ => none

/-- A character that does not continue a number ends it, unless the number is incomplete. -/
def Reader.settle (r : Reader) (c : Char) : Reader :=
  match r.mode with
  | .number part acc =>
    match part.next? c with
    | some _ => r
    | none =>
      if part.complete then r.deliver (.number (String.ofList acc.reverse)) else r.fail
  | _ => r

/-- Takes one character; of a number only characters that continue it. -/
def Reader.step (r : Reader) (c : Char) : Reader :=
  match r.mode with
  | .value afterOpen =>
    if isSpace c then r
    else if afterOpen && c == ']' then r.leave (.array [])
    else r.startValue c
  | .name afterOpen =>
    if isSpace c then r
    else if afterOpen && c == '\x7d' then r.leave (.object [])
    else if c == '"' then { r with mode := .text true [] }
    else r.fail
  | .colon => if isSpace c then r else if c == ':' then { r with mode := .value false } else r.fail
  | .next => if isSpace c then r else r.afterValue c
  | .text isName units =>
    if c == '"' then r.endText isName units
    else if c == '\\' then { r with mode := .escape isName units }
    else if c < ' ' then r.fail
    else { r with mode := .text isName (c.toNat :: units) }
  | .escape isName units =>
    if c == 'u' then { r with mode := .hex isName units 4 0 }
    else
      match shortEscape? c with
      | some n => { r with mode := .text isName (n :: units) }
      | none => r.fail
  | .hex isName units left code =>
    match Text.hexValue? c with
    | none => r.fail
    | some d =>
      if left ≤ 1 then { r with mode := .text isName ((code * 16 + d) :: units) }
      else { r with mode := .hex isName units (left - 1) (code * 16 + d) }
  | .word rest v =>
    match rest with
    | [] => r.fail
    | [x] => if c == x then r.deliver v else r.fail
    | x :: more => if c == x then { r with mode := .word more v } else r.fail
  | .number part acc =>
    match part.next? c with
    | some part => { r with mode := .number part (c :: acc) }
    | none => r.fail
  | .done _ | .failed => r

/-- Reads characters until the answer is known; gives the characters that were not needed. -/
def Reader.run (r : Reader) : List Char → Reader × List Char
  | [] => (r, [])
  | c :: cs =>
    let r := r.settle c
    if r.over then (r, c :: cs) else (r.step c).run cs

/-- Value of a reader that gets no further characters. -/
def Reader.finish? (r : Reader) : Option Value :=
  match r.mode with
  | .done v => some v
  | .number part acc =>
    if part.complete && r.stack.isEmpty then some (.number (String.ofList acc.reverse)) else none
  | _ => none

/-- First value of a text, and what follows it. -/
def first? (cs : List Char) : Option (Value × List Char) :=
  let (r, rest) := Reader.start.run cs
  r.finish?.map fun v => (v, rest)

/-- Value of a text that holds one value and blanks. -/
def whole? (cs : List Char) : Option Value :=
  match first? cs with
  | some (v, rest) => if rest.all isSpace then some v else none
  | none => none

end PollSocket.Json
