import PollSocket.Decimal.Digits

set_option autoImplicit false

/-!
# Lengths of time

A length of time is a whole number of nanoseconds that fits into 64 bits. It is written with the
units that make it up, such as `1h30m0s`, and below a second with the one unit that fits, such as
`1.5ms`. It is read as a sign and a sequence of decimal numbers, each with its unit.
-/

namespace PollSocket.Duration

/-- Number of nanoseconds of a unit. -/
def unit? : String → Option Nat
  | "ns" => some 1
  | "us" => some 1000
  | "µs" => some 1000
  | "μs" => some 1000
  | "ms" => some 1000000
  | "s" => some 1000000000
  | "m" => some 60000000000
  | "h" => some 3600000000000
  | _ => none

/-- The bound that no part of a length of time may pass. -/
def bound : Nat := Decimal.signedBound

/-! ## Writing -/

/-- A point and `places` digits of `n`, without zeros at the end; nothing if only zeros are left. -/
def fraction (n places : Nat) : String :=
  let digits := Nat.toDigits 10 n
  let padded := List.replicate (places - digits.length) '0' ++ digits
  match (padded.reverse.dropWhile (· == '0')).reverse with
  | [] => ""
  | kept => String.ofList ('.' :: kept)

/-- A number of nanoseconds, in units of `10 ^ places` of them. -/
def scaled (n places : Nat) : String :=
  toString (n / Decimal.powTen places) ++ fraction (n % Decimal.powTen places) places

/-- Text of a length of time that is not negative. -/
def magnitude (n : Nat) : String :=
  if n = 0 then "0s"
  else if n < 1000 then toString n ++ "ns"
  else if n < 1000000 then scaled n 3 ++ "µs"
  else if n < 1000000000 then scaled n 6 ++ "ms"
  else
    let seconds := n / 1000000000
    let minutes := seconds / 60
    let hours := minutes / 60
    let rest := scaled (n % 60000000000) 9 ++ "s"
    if hours = 0 then
      if minutes = 0 then rest else toString minutes ++ "m" ++ rest
    else toString hours ++ "h" ++ toString (minutes % 60) ++ "m" ++ rest

/-- Text of a length of time. -/
def text (ns : Int) : String := if ns < 0 then "-" ++ magnitude ns.natAbs else magnitude ns.natAbs

/-! ## Reading -/

/-- Value of decimal digits, unless it passes the bound. -/
def wholeOf (digits : List Char) : Option Nat :=
  digits.foldl (fun acc c => acc.bind fun n =>
    if bound / 10 < n then none
    else
      let next := n * 10 + (c.toNat - 48)
      if bound < next then none else some next) (some 0)

/-- Value of the digits behind a point and the power of ten they are divided by. Digits that would
pass the bound are left out. -/
def fractionOf (digits : List Char) : Nat × Nat :=
  let (value, places, _) := digits.foldl (fun (acc : Nat × Nat × Bool) c =>
    let (value, places, full) := acc
    if full || (bound - 1) / 10 < value then (value, places, true)
    else
      let next := value * 10 + (c.toNat - 48)
      if bound < next then (value, places, true) else (next, places + 1, false)) (0, 0, false)
  (value, Decimal.powTen places)

/-- Nanoseconds of a fraction of a unit, in the precision of binary numbers. -/
def fractionOfUnit (value scale unit : Nat) : Nat :=
  if value = 0 then 0
  else (Float.ofNat value * (Float.ofNat unit / Float.ofNat scale)).toUInt64.toNat

/-- One number with its unit, and what follows. -/
def part? (cs : List Char) : Option (Nat × List Char) := do
  let digits := cs.takeWhile Char.isDigit
  let rest := cs.dropWhile Char.isDigit
  let whole ← wholeOf digits
  let (behind, rest) := match rest with
    | '.' :: more => (more.takeWhile Char.isDigit, more.dropWhile Char.isDigit)
    | _ => ([], rest)
  if digits.isEmpty && behind.isEmpty then none
  let isUnit := fun c : Char => c != '.' && !c.isDigit
  let unit ← unit? (String.ofList (rest.takeWhile isUnit))
  if bound / unit < whole then none
  let (value, scale) := fractionOf behind
  let total := whole * unit + fractionOfUnit value scale unit
  if bound < total then none else some (total, rest.dropWhile isUnit)

/-- Sum of the parts of a text; `fuel` bounds their number. -/
def sum? : Nat → Nat → List Char → Option Nat
  | _, total, [] => some total
  | 0, _, _ => none
  | fuel + 1, total, cs => do
    let (more, rest) ← part? cs
    if bound < total + more then none else sum? fuel (total + more) rest

/-- Length of time with the given text. -/
def parse? (s : String) : Option Int :=
  let (negative, cs) := match s.toList with
    | '-' :: more => (true, more)
    | '+' :: more => (false, more)
    | cs => (false, cs)
  match cs with
  | [] => none
  | ['0'] => some 0
  | _ => do
    let total ← sum? cs.length 0 cs
    if negative then some (-(total : Int))
    else if bound ≤ total then none else some total

end PollSocket.Duration
