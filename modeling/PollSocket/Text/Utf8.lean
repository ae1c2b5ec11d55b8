set_option autoImplicit false

/-!
# UTF-8 text as bytes

A text is written as the bytes of its characters. Reading never fails: a byte that starts no
well-formed sequence stands for the replacement character on its own, and reading goes on with the
byte after it. `decode` keeps one replacement per such byte, `decodeRuns` one for every run of them.
-/

namespace PollSocket.Text

/-- The character that stands for bytes which are no text. -/
def replacement : Char := '\ufffd'

/-- Continuation byte of a sequence. -/
def isTail (b : UInt8) : Bool := 0x80 ≤ b && b ≤ 0xBF

/-- Payload of a continuation byte. -/
def tailBits (b : UInt8) : Nat := b.toNat - 0x80

/-- Character written as two bytes. -/
def pair? (a b : UInt8) : Option Char :=
  if 0xC2 ≤ a && a ≤ 0xDF && isTail b then
    some (Char.ofNat ((a.toNat - 0xC0) * 0x40 + tailBits b))
  else none

/-- Character written as three bytes: no shorter form exists and it is no surrogate. -/
def triple? (a b c : UInt8) : Option Char :=
  if 0xE0 ≤ a && a ≤ 0xEF && isTail b && isTail c &&
      (a != 0xE0 || 0xA0 ≤ b) && (a != 0xED || b ≤ 0x9F) then
    some (Char.ofNat ((a.toNat - 0xE0) * 0x1000 + tailBits b * 0x40 + tailBits c))
  else none

/-- Character written as four bytes: no shorter form exists and it is at most U+10FFFF. -/
def quad? (a b c d : UInt8) : Option Char :=
  if 0xF0 ≤ a && a ≤ 0xF4 && isTail b && isTail c && isTail d &&
      (a != 0xF0 || 0x90 ≤ b) && (a != 0xF4 || b ≤ 0x8F) then
    some (Char.ofNat ((a.toNat - 0xF0) * 0x40000 + tailBits b * 0x1000 + tailBits c * 0x40 +
      tailBits d))
  else none

/-- Character that starts with the byte `a`, and how many of the bytes after it belong to it. -/
def leading? (a : UInt8) (more : List UInt8) : Option (Char × Nat) :=
  if a < 0x80 then some (Char.ofNat a.toNat, 0)
  else
    match more with
    | [] => none
    | b :: more =>
      match pair? a b with
      | some ch => some (ch, 1)
      | none =>
        match more with
        | [] => none
        | c :: more =>
          match triple? a b c with
          | some ch => some (ch, 2)
          | none =>
            match more with
            | [] => none
            | d :: _ => (quad? a b c d).map fun ch => (ch, 3)

/-- Characters of the bytes after the first `skip` ones, behind the characters `acc` (last first).
A byte that is no text stands for `bad`. `broken` holds after such a byte; with `merge` it adds
nothing after another one. -/
def decodeOnto (bad : Char) (merge : Bool) (acc : List Char) (broken : Bool) (skip : Nat) :
    List UInt8 → List Char
  | [] => acc.reverse
  | a :: more =>
    match skip with
    | skip + 1 => decodeOnto bad merge acc broken skip more
    | 0 =>
      match leading? a more with
      | some (ch, n) => decodeOnto bad merge (ch :: acc) false n more
      | none =>
        decodeOnto bad merge (if merge && broken then acc else bad :: acc) true 0 more

/-- Characters of the bytes, with one replacement character for every byte that is no text. -/
def decode (bytes : List UInt8) : List Char := decodeOnto replacement false [] false 0 bytes

/-- Text of the bytes, with one character `bad` for every run of bytes that are no text. -/
def decodeRuns (bad : Char) (bytes : List UInt8) : String :=
  String.ofList (decodeOnto bad true [] false 0 bytes)

/-- Bytes of a text. -/
def encode (s : String) : List UInt8 := s.toUTF8.data.toList

/-- Text of the bytes, with one replacement character for every byte that is no text. -/
def ofBytes (bytes : List UInt8) : String := String.ofList (decode bytes)

/-- Number of bytes of a text. -/
def byteLength (s : String) : Nat := s.utf8ByteSize

end PollSocket.Text
