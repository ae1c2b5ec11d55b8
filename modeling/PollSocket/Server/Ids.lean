import PollSocket.Text.Hex

set_option autoImplicit false

/-!
# New session ids

An id is made of sixteen bytes: version and variant are marked in two of them, and they are written
in five groups. Bytes come from a script first and then from a counter.
-/

namespace PollSocket.Server

/-- The lowest `width` bytes of a number, highest first. -/
def bigEndian : Nat → Nat → List UInt8
  | 0, _ => []
  | width + 1, n => bigEndian width (n / 256) ++ [UInt8.ofNat (n % 256)]

/-- Id made of sixteen bytes. -/
def idOfBytes (bytes : List UInt8) : String :=
  let bytes := bytes.modify 6 fun b => (b &&& 0x0F) ||| 0x40
  let bytes := bytes.modify 8 fun b => (b &&& 0x3F) ||| 0x80
  let group (first size : Nat) := String.ofList (Text.hexOfBytes ((bytes.drop first).take size))
  "-".intercalate [group 0 4, group 4 2, group 6 2, group 8 2, group 10 6]

/-- Source of ids. -/
structure Ids where
  /-- Bytes of the next ids. -/
  scripted : List (List UInt8) := []
  /-- Counter after that. -/
  next : Nat := 1
  deriving DecidableEq, Inhabited

/-- Makes an id. -/
def Ids.draw (ids : Ids) : String × Ids :=
  match ids.scripted with
  | bytes :: more => (idOfBytes bytes, { ids with scripted := more })
  | [] => (idOfBytes (bigEndian 16 ids.next), { ids with next := ids.next + 1 })

end PollSocket.Server
