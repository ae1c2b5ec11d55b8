import PollSocket.Decimal.Digits

set_option autoImplicit false

/-!
# Writing decimals

Digits are laid out with a point among them or with an exponent after them. A layout says when a
number is written with an exponent and how many digits that has at least.
-/

namespace PollSocket.Decimal

/-- When and how exponents are written. -/
structure Layout where
  /-- Exponents below this are written. -/
  least : Int
  /-- Exponents from this on are written. -/
  most : Int
  /-- Least number of digits of an exponent. -/
  width : Nat

/-- Numbers in texts and settings: from 10⁻⁴ on and below 10⁶ without an exponent. -/
def Layout.plain : Layout := ⟨-4, 6, 2⟩

/-- Numbers in JSON: from 10⁻⁶ on and below 10²¹ without an exponent. -/
def Layout.json : Layout := ⟨-6, 21, 1⟩

/-- Character of a digit. -/
def digitChar (n : Nat) : Char := Char.ofNat (48 + n)

/-- Digit at a place counted from the first one; zero outside. -/
def Digits.at (d : Digits) (i : Int) : Char :=
  if i < 0 then '0' else digitChar (d.digits.getD i.toNat 0)

/-- A point and `places` digits after it; without places nothing. -/
def fractionPart (d : Digits) (start : Int) (places : Nat) : List Char :=
  if places = 0 then []
  else '.' :: (List.range places).map fun (i : Nat) => d.at (start + i)

/-- With a point and `places` digits after it. -/
def positional (d : Digits) (places : Nat) : List Char :=
  let whole := if d.point ≤ 0 then ['0'] else (List.range d.point.toNat).map fun (i : Nat) => d.at i
  whole ++ fractionPart d d.point places

/-- Written exponent. -/
def exponentChars (mark : Char) (width : Nat) (e : Int) : List Char :=
  let ds := Nat.toDigits 10 e.natAbs
  mark :: (if e < 0 then '-' else '+') :: (List.replicate (width - ds.length) '0' ++ ds)

/-- With one digit in front of the point, `places` after it and an exponent. -/
def withExponent (d : Digits) (places : Nat) (mark : Char) (width : Nat) : List Char :=
  let e := if d.digits.isEmpty then 0 else d.point - 1
  d.at 0 :: fractionPart d 1 places ++ exponentChars mark width e

/-- Laid out with as many digits as there are. -/
def Layout.write (l : Layout) (d : Digits) : List Char :=
  let e := if d.digits.isEmpty then 0 else d.point - 1
  if e < l.least || l.most ≤ e then withExponent d (d.digits.length - 1) 'e' l.width
  else positional d (d.digits.length - d.point).toNat

/-- The number is below zero, or the zero with that sign. -/
def isNegative (x : Float) : Bool := x.toBits >>> 63 == 1

/-- Shortest text of a number. -/
def Layout.text (l : Layout) (x : Float) : String :=
  if x.isNaN then "NaN"
  else if x.isInf then (if isNegative x then "-Inf" else "+Inf")
  else
    String.ofList ((if isNegative x then ['-'] else []) ++
      l.write (Binary.ofBits x.toBits).shortest)

end PollSocket.Decimal
