set_option autoImplicit false

/-!
# White space and letter case

White space is the Unicode property of that name. Case folding is needed only as far as it reaches
the letters `a` to `z`: two characters outside ASCII fold to one of them, and two have one of them
as lower-case form.
-/

namespace PollSocket.Text

/-- The Unicode property White_Space. -/
def isBlank (c : Char) : Bool :=
  ('\t' ≤ c && c ≤ '\r') || c == ' ' || c == '\u0085' || c == '\u00a0' || c == '\u1680' ||
    ('\u2000' ≤ c && c ≤ '\u200a') || c == '\u2028' || c == '\u2029' || c == '\u202f' ||
    c == '\u205f' || c == '\u3000'

/-- A text without the white space at both ends. -/
def trim (s : String) : String :=
  String.ofList ((s.toList.dropWhile isBlank).reverse.dropWhile isBlank).reverse

/-- Lower-case form, as far as it is one of `a` to `z`: besides the ASCII capitals these are
U+0130 and the Kelvin sign. Other characters stay. -/
def lower (c : Char) : Char :=
  if 'A' ≤ c && c ≤ 'Z' then Char.ofNat (c.toNat + 32)
  else if c == '\u0130' then 'i'
  else if c == '\u212a' then 'k'
  else c

/-- One representative for characters that differ in case only, as far as an ASCII letter is among
them: the long s counts as `S`, the Kelvin sign as `K`. -/
def foldCase (c : Char) : Char :=
  if 'a' ≤ c && c ≤ 'z' then Char.ofNat (c.toNat - 32)
  else if c == '\u017f' then 'S'
  else if c == '\u212a' then 'K'
  else c

/-- Equality up to case. -/
def sameFolded (a b : String) : Bool := a.toList.map foldCase == b.toList.map foldCase

/-- Lower-case form of an ASCII letter. -/
def lowerAscii (c : Char) : Char :=
  if 'A' ≤ c && c ≤ 'Z' then Char.ofNat (c.toNat + 32) else c

/-- Upper-case form of an ASCII letter. -/
def upperAscii (c : Char) : Char :=
  if 'a' ≤ c && c ≤ 'z' then Char.ofNat (c.toNat - 32) else c

end PollSocket.Text
