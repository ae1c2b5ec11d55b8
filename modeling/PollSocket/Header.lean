import PollSocket.Text.Blank

set_option autoImplicit false

/-!
# Header fields

Names are compared in their canonical form: the first letter and every letter after a hyphen are
capitals, the others are not. A name with a character that no field name has is its own canonical
form. A field may have several values.
-/

namespace PollSocket

/-- Characters of tokens such as field names and methods. -/
def isTokenChar (c : Char) : Bool :=
  ('0' ≤ c && c ≤ '9') || ('a' ≤ c && c ≤ 'z') || ('A' ≤ c && c ≤ 'Z') ||
    "!#$%&'*+-.^_`|~".toList.contains c

/-- Characters of a field name in canonical case; `upper` holds at the start of a word. -/
def canonicalChars (upper : Bool) : List Char → List Char
  | [] => []
  | c :: cs => (if upper then Text.upperAscii c else Text.lowerAscii c) :: canonicalChars (c == '-') cs

/-- Canonical form of a field name. -/
def canonicalName (name : String) : String :=
  if name.toList.all isTokenChar then String.ofList (canonicalChars true name.toList) else name

/-- Header fields in order of first appearance, each with its values. -/
structure Header where
  fields : List (String × List String) := []
  deriving DecidableEq

namespace Header

/-- Replaces the values of a canonical name, at its place or at the end. -/
def put (name : String) (values : List String) : List (String × List String) → List (String × List String)
  | [] => [(name, values)]
  | (k, v) :: more => if k == name then (k, values) :: more else (k, v) :: put name values more

/-- Values of a field. -/
def values (h : Header) (name : String) : List String :=
  (h.fields.lookup (canonicalName name)).getD []

/-- First value of a field, or the empty text. -/
def get (h : Header) (name : String) : String := (h.values name).headD ""

/-- Gives a field one value. -/
def set (h : Header) (name value : String) : Header :=
  ⟨put (canonicalName name) [value] h.fields⟩

/-- Gives a field these values under a name taken as it is. -/
def setAll (h : Header) (name : String) (values : List String) : Header :=
  ⟨put name values h.fields⟩

/-- Adds a value to a field. -/
def add (h : Header) (name value : String) : Header :=
  ⟨put (canonicalName name) (h.values name ++ [value]) h.fields⟩

/-- Adds every value of the other header. -/
def addAll (h other : Header) : Header :=
  other.fields.foldl (fun h (k, vs) => vs.foldl (fun h v => h.add k v) h) h

end Header

end PollSocket
