import PollSocket.Decimal.Reading

set_option autoImplicit false

/-!
# What a scalar stands for

A scalar without a tag stands for nothing, a truth value, a number, a point in time or a text,
whichever its spelling fits. A tag of the standard set asks for one of these.
-/

namespace PollSocket.Yaml

/-- Value of a scalar. -/
inductive Scalar where
  | nothing
  | truth (b : Bool)
  | whole (n : Int)
  | real (f : Float)
  | time
  | text (s : String)
  deriving Inhabited

/-- Tags of the standard set, in their short form. -/
def Scalar.tag : Scalar → String
  | .nothing => "!!null"
  | .truth _ => "!!bool"
  | .whole _ => "!!int"
  | .real _ => "!!float"
  | .time => "!!timestamp"
  | .text _ => "!!str"

/-! ## Whole numbers -/

/-- Value of a digit in a base of at most sixteen. -/
def digitOf? (base : Nat) (c : Char) : Option Nat :=
  let v :=
    if c.isDigit then c.toNat - 48
    else if 'a' ≤ c && c ≤ 'f' then c.toNat - 87
    else if 'A' ≤ c && c ≤ 'F' then c.toNat - 55
    else 16
  if v < base then some v else none

/-- Value of digits in a base. -/
def digits? (base : Nat) (cs : List Char) : Option Nat :=
  if cs.isEmpty then none
  else cs.foldl (fun acc c => do
    let n ← acc
    let d ← digitOf? base c
    some (n * base + d)) (some 0)

/-- Value of digits in the base that their first characters name: `0x`, `0b`, `0o` or `0`. -/
def natural? : List Char → Option Nat
  | ['0'] => some 0
  | '0' :: b :: rest =>
    if b == 'x' || b == 'X' then digits? 16 rest
    else if b == 'b' || b == 'B' then digits? 2 rest
    else if b == 'o' || b == 'O' then digits? 8 rest
    else digits? 8 (b :: rest)
  | cs => digits? 10 cs

/-- A whole number with an optional sign: at least `-2^63`, below `2^63` with a sign and below
`2^64` without. -/
def whole? (cs : List Char) : Option Int :=
  match cs with
  | '-' :: rest => do
    let n ← natural? rest
    if n ≤ Decimal.signedBound then some (-(n : Int)) else none
  | '+' :: rest => do
    let n ← natural? rest
    if n < Decimal.signedBound then some n else none
  | _ => do
    let n ← natural? cs
    if n < Decimal.unsignedBound then some n else none

/-- A whole number whose sign, if it has one, stands behind the mark of base two or eight. -/
def signInside? : List Char → Option Int
  | '0' :: b :: s :: rest => do
    let base ← if b == 'b' then some 2 else if b == 'o' then some 8 else none
    let n ← digits? base rest
    if s == '-' && n ≤ Decimal.signedBound then some (-(n : Int))
    else if s == '+' && n < Decimal.signedBound then some n
    else none
  | _ => none

/-! ## Points in time -/

/-- Number of days of a month. -/
def daysOf (year month : Nat) : Nat :=
  if month = 2 then
    if year % 4 = 0 && (year % 100 != 0 || year % 400 = 0) then 29 else 28
  else if month = 4 || month = 6 || month = 9 || month = 11 then 30
  else 31

/-- A number of one or two digits, and what follows. -/
def oneOrTwo? : List Char → Option (Nat × List Char)
  | a :: b :: rest =>
    if a.isDigit then
      if b.isDigit then some ((a.toNat - 48) * 10 + (b.toNat - 48), rest)
      else some (a.toNat - 48, b :: rest)
    else none
  | [a] => if a.isDigit then some (a.toNat - 48, []) else none
  | [] => none

/-- A distance from universal time: `Z`, or a sign, two digits, a colon and two digits. -/
def isZone : List Char → Bool
  | ['Z'] => true
  | [s, a, b, ':', c, d] =>
    (s == '+' || s == '-') && a.isDigit && b.isDigit && c.isDigit && d.isDigit &&
      (a.toNat - 48) * 10 + (b.toNat - 48) ≤ 24 && (c.toNat - 48) * 10 + (d.toNat - 48) ≤ 60
  | _ => false

/-- Past a fraction of a second. -/
def overFraction : List Char → List Char
  | p :: d :: rest =>
    if (p == '.' || p == ',') && d.isDigit then rest.dropWhile Char.isDigit else p :: d :: rest
  | cs => cs

/-- A date, alone or with a time of day: with a zone behind `T` or `t`, without one behind a space. -/
def isTime (cs : List Char) : Bool :=
  let date? : Option (List Char) := do
    let (y, rest) := (cs.takeWhile Char.isDigit, cs.dropWhile Char.isDigit)
    if y.length != 4 then none
    let year := Decimal.natOfDigits y
    match rest with
    | '-' :: rest => do
      let (month, rest) ← oneOrTwo? rest
      match rest with
      | '-' :: rest => do
        let (day, rest) ← oneOrTwo? rest
        if 1 ≤ month && month ≤ 12 && 1 ≤ day && day ≤ daysOf year month then some rest else none
      | _ => none
    | _ => none
  let clock? (cs : List Char) : Option (List Char) := do
    let (hour, rest) ← oneOrTwo? cs
    match rest with
    | ':' :: rest => do
      let (minute, rest) ← oneOrTwo? rest
      match rest with
      | ':' :: rest => do
        let (second, rest) ← oneOrTwo? rest
        if hour < 24 && minute < 60 && second < 60 then some (overFraction rest) else none
      | _ => none
    | _ => none
  match date? with
  | none => false
  | some [] => true
  | some (sep :: rest) =>
    match clock? (if sep == ' ' then rest.dropWhile (· == ' ') else rest) with
    | none => false
    | some rest =>
      if sep == 'T' || sep == 't' then isZone rest else sep == ' ' && rest.isEmpty

/-! ## Spellings -/

/-- Spellings with a meaning of their own. -/
def named? : String → Option Scalar
  | "" | "~" | "null" | "Null" | "NULL" => some .nothing
  | "true" | "True" | "TRUE" => some (.truth true)
  | "false" | "False" | "FALSE" => some (.truth false)
  | ".nan" | ".NaN" | ".NAN" => some (.real (0.0 / 0.0))
  | ".inf" | ".Inf" | ".INF" | "+.inf" | "+.Inf" | "+.INF" => some (.real (1.0 / 0.0))
  | "-.inf" | "-.Inf" | "-.INF" => some (.real (-1.0 / 0.0))
  | _ => none

/-- Value of a text that starts with a digit or a sign. -/
def numeric (s : String) (dated : Bool) : Scalar :=
  if dated && isTime s.toList then .time
  else
    let kept := s.toList.filter (· != '_')
    match whole? kept with
    | some n => .whole n
    | none =>
      match Decimal.real? (String.ofList kept) with
      | some f => .real f
      | none =>
        match signInside? kept with
        | some n => .whole n
        | none => .text s

/-- Value of a text by its spelling. Points in time are looked for only where `dated` holds. -/
def Scalar.ofSpelling (s : String) (dated : Bool) : Scalar :=
  match named? s with
  | some v => v
  | none =>
    match s.toList with
    | [] => .nothing
    | c :: _ =>
      if c == '.' then
        match Decimal.real? s with
        | some f => .real f
        | none => .text s
      else if c.isDigit || c == '+' || c == '-' then numeric s dated
      else .text s

/-- Value of a scalar with a tag, unless its spelling does not fit the tag. A tag outside the
standard set leaves the text as it is. -/
def Scalar.ofTagged? (tag s : String) : Option Scalar :=
  if tag == "!!str" then some (.text s)
  else if ["!!bool", "!!int", "!!float", "!!null", "!!timestamp"].contains tag then
    let v := ofSpelling s (tag == "!!timestamp")
    if v.tag == tag then some v
    else
      match v with
      | .whole n =>
        if tag == "!!float" && n < Decimal.signedBound then some (.real (Float.ofInt n)) else none
      | _ => none
  else some (.text s)

end PollSocket.Yaml
