import PollSocket.Decimal.Layout
import PollSocket.Json.Writer
import PollSocket.Log.Record

set_option autoImplicit false

/-!
# Log lines

A record is written as one line, either of pairs `name=value` or as a JSON object. Level and message
come first, then the attributes in order. In a line of pairs names and values are quoted when they
could be misread. Lines start with the time, which is left to whoever puts them out.
-/

namespace PollSocket.Log

/-- A name or value that is quoted in a line of pairs: an empty one, and one with a blank, a quote,
an equals sign or a character that cannot be printed. -/
def needsQuotes (s : String) : Bool :=
  s.isEmpty || s.toList.any fun c =>
    if c.toNat < 0x80 then c == ' ' || c == '=' || c == '"' || c < ' '
    else c == '\ufffd' || Text.isBlank c || !Text.isPrintable c

/-- A name or value in a line of pairs. -/
def pairText (s : String) : String := if needsQuotes s then Text.quote s else s

/-- Text of a value in a line of pairs. -/
def Value.shown (trace : Backtrace) : Value → String
  | .text s => s
  | .number n => toString n
  | .truth b => if b then "true" else "false"
  | .real bits => Decimal.Layout.plain.text (Float.ofBits bits)
  | .nothing => "<nil>"
  | .failure f => f.details trace

/-- Line of pairs. -/
def Record.pairs (trace : Backtrace) (r : Record) : String :=
  let pair (k v : String) : String := pairText k ++ "=" ++ pairText v
  " ".intercalate (("level=" ++ r.level.name) :: pair "msg" r.message ::
    r.attrs.map fun (k, v) => pair k (v.shown trace)) ++ "\n"

/-- A value in a JSON object. -/
def Value.json : Value → Json.Value
  | .text s => .string s
  | .number n => .number (toString n)
  | .truth b => .bool b
  | .real bits => .number (Decimal.Layout.json.text (Float.ofBits bits))
  | .nothing => .null
  | .failure f => .string f.message

/-- Line with a JSON object. -/
def Record.jsonLine (r : Record) : String :=
  (Json.Value.object (("level", .string r.level.name) :: ("msg", .string r.message) ::
    r.attrs.map fun (k, v) => (k, v.json))).write .log ++ "\n"

/-- The two forms of lines. -/
inductive Form where
  | pairs
  | json
  deriving DecidableEq, Inhabited

/-- Line of a record. -/
def Record.line (trace : Backtrace) (r : Record) : Form → String
  | .pairs => r.pairs trace
  | .json => r.jsonLine

/-- Number of bytes that the time takes up in a line. -/
def Form.stampSize : Form → Nat
  | .pairs => 30
  | .json => 40

end PollSocket.Log
