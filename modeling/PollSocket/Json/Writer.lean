import PollSocket.Text.Hex
import PollSocket.Json.Value

set_option autoImplicit false

/-!
# Writing JSON

A value is written without blanks. Two dialects of string literals are in use: messages escape
`<`, `>` and `&` so that a body can stand inside a page, log lines do not, and log lines have fewer
short escapes.
-/

namespace PollSocket.Json

/-- What a dialect of string literals escapes besides quote, backslash, controls below U+0020 and
the two Unicode line separators. -/
structure Escapes where
  /-- Control characters with a letter of their own, and that letter. -/
  short : List (Char × Char)
  /-- Printable characters written as `\u00hh`. -/
  markup : List Char

/-- String literals of message bodies. -/
def Escapes.message : Escapes where
  short := [('\x08', 'b'), ('\x0c', 'f'), ('\n', 'n'), ('\r', 'r'), ('\t', 't')]
  markup := ['<', '>', '&']

/-- String literals of log lines. -/
def Escapes.log : Escapes where
  short := [('\n', 'n'), ('\r', 'r'), ('\t', 't')]
  markup := []

/-- `\uhhhh` with the code of a character of the basic plane. -/
def escapeUnit (n : Nat) : List Char := ['\\', 'u'] ++ Text.hexDigits 4 n

/-- One character of a string literal. -/
def Escapes.char (e : Escapes) (c : Char) : List Char :=
  if c == '"' || c == '\\' then ['\\', c]
  else
    match e.short.lookup c with
    | some letter => ['\\', letter]
    | none =>
      if c < ' ' || e.markup.contains c || c == '\u2028' || c == '\u2029' then escapeUnit c.toNat
      else [c]

/-- String literal, followed by `rest`. -/
def Escapes.literal (e : Escapes) (s : String) : List Char :=
  '"' :: s.toList.flatMap e.char ++ ['"']

mutual

/-- Written form of a value. -/
def Value.chars (e : Escapes) : Value → List Char
  | .null => "null".toList
  | .bool true => "true".toList
  | .bool false => "false".toList
  | .number text => text.toList
  | .string text => e.literal text
  | .array items => '[' :: itemChars e items ++ [']']
  | .object members => '\x7b' :: memberChars e members ++ ['\x7d']

/-- Written form of the items of an array. -/
def itemChars (e : Escapes) : List Value → List Char
  | [] => []
  | [v] => v.chars e
  | v :: w :: more => v.chars e ++ ',' :: itemChars e (w :: more)

/-- Written form of the members of an object. -/
def memberChars (e : Escapes) : List (String × Value) → List Char
  | [] => []
  | [(k, v)] => e.literal k ++ ':' :: v.chars e
  | (k, v) :: m :: more => e.literal k ++ ':' :: v.chars e ++ ',' :: memberChars e (m :: more)

end

/-- Written form of a value. -/
def Value.write (e : Escapes) (v : Value) : String := String.ofList (v.chars e)

end PollSocket.Json
