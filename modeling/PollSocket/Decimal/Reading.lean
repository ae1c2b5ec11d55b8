import PollSocket.Decimal.Digits

set_option autoImplicit false

/-!
# Reading numbers

A decimal number is read as the nearest binary one. A number beyond the largest finite one is not
read at all, and one below the smallest is zero.
-/

namespace PollSocket.Decimal

/-- Value of decimal digits. -/
def natOfDigits (digits : List Char) : Nat := digits.foldl (fun n c => n * 10 + (c.toNat - 48)) 0

/-- The number `digits * 10 ^ exponent`. -/
def nearest? (digits : List Char) (exponent : Int) : Option Float :=
  let kept := digits.dropWhile (· == '0')
  if kept.isEmpty then some 0.0
  else
    let top : Int := kept.length + exponent
    if 310 < top then none
    else if top < -330 then some 0.0
    else
      let f := Float.ofScientific (natOfDigits kept) (exponent < 0) exponent.natAbs
      if f.isInf then none else some f

/-- Exponent mark and exponent at the end of a number. -/
def exponentPart? : List Char → Option Int
  | [] => some 0
  | 'e' :: cs => signed? cs
  | 'E' :: cs => signed? cs
  | _ => none
where
  /-- Digits behind an optional sign. Exponents past any use are cut. -/
  signed? (cs : List Char) : Option Int :=
    let (negative, ds) := match cs with
      | '-' :: ds => (true, ds)
      | '+' :: ds => (false, ds)
      | ds => (false, ds)
    if ds.isEmpty || !ds.all Char.isDigit then none
    else
      let n : Int := natOfDigits ((ds.dropWhile (· == '0')).take 9)
      some (if negative then -n else n)

/-- A number without sign: digits, perhaps with a point among them, and perhaps an exponent. -/
def unsigned? (cs : List Char) : Option Float := do
  let front := cs.takeWhile Char.isDigit
  let rest := cs.dropWhile Char.isDigit
  let (behind, rest) := match rest with
    | '.' :: more => (more.takeWhile Char.isDigit, more.dropWhile Char.isDigit)
    | _ => ([], rest)
  if front.isEmpty && behind.isEmpty then none
  let exponent ← exponentPart? rest
  nearest? (front ++ behind) (exponent - behind.length)

/-- A number with an optional sign. -/
def real? (s : String) : Option Float :=
  match s.toList with
  | '-' :: cs => (unsigned? cs).map (-·)
  | '+' :: cs => unsigned? cs
  | cs => unsigned? cs

/-- A number, or a name of one that is not finite, in any case. -/
def realOrNamed? (s : String) : Option Float :=
  let name := String.ofList (s.toList.map Char.toLower)
  if ["inf", "+inf", "infinity", "+infinity"].contains name then some (1.0 / 0.0)
  else if ["-inf", "-infinity"].contains name then some (-1.0 / 0.0)
  else if name == "nan" then some (0.0 / 0.0)
  else real? s

/-- The whole part of a number, toward zero. -/
def truncated (f : Float) : Int :=
  let x := Binary.ofBits f.toBits
  let whole : Int := x.m * powTwo x.q.toNat / powTwo (-x.q).toNat
  if f < 0.0 then -whole else whole

end PollSocket.Decimal
