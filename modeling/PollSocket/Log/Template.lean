import PollSocket.Decimal.Layout
import PollSocket.Text.Quoted
import PollSocket.Text.Utf8

set_option autoImplicit false

/-!
# Message templates

A template is a text with directives that start with `%`: flags, a width, a precision, perhaps the
number of an argument in brackets, and a verb. A directive that does not fit its argument, or has
none, says so in the message, and so do arguments without a directive.
-/

namespace PollSocket.Log.Template

/-- An argument. -/
inductive Arg where
  | text (s : String)
  | number (n : Int)
  | truth (b : Bool)
  | real (x : Float)
  | nothing

/-- Name of the type of an argument. -/
def Arg.type : Arg → String
  | .text _ => "string"
  | .number _ => "int64"
  | .truth _ => "bool"
  | .real _ => "float64"
  | .nothing => "<nil>"

/-- Flags, width and precision of a directive. -/
structure Directive where
  sharp : Bool := false
  zero : Bool := false
  plus : Bool := false
  minus : Bool := false
  space : Bool := false
  /-- The value is to be written as a literal. -/
  literal : Bool := false
  width : Option Nat := none
  precision : Option Nat := none

/-- Filling in front of or behind a text. -/
def Directive.padding (d : Directive) (n : Nat) : List Char :=
  List.replicate n (if d.zero && !d.minus then '0' else ' ')

/-- A text filled up to the width. -/
def Directive.pad (d : Directive) (s : List Char) : List Char :=
  let n := d.width.getD 0 - s.length
  if d.minus then s ++ d.padding n else d.padding n ++ s

/-- A text cut to the precision. -/
def Directive.cut (d : Directive) (s : List Char) : List Char :=
  match d.precision with
  | none => s
  | some p => s.take p

/-- Digits of a number in a base up to sixteen. -/
def digitsIn (base : Nat) (upper : Bool) (n : Nat) : List Char :=
  (Nat.toDigits base n).map fun c => if upper then Text.upperAscii c else c

/-- An integer in a base. -/
def Directive.integer (d : Directive) (n : Int) (base : Nat) (upper : Bool) (verb : Char) :
    List Char :=
  if d.precision = some 0 && n = 0 then { d with zero := false }.padding (d.width.getD 0)
  else
    let signed := n < 0 || d.plus || d.space
    let least := match d.precision with
      | some p => p
      | none =>
        if d.zero && !d.minus then d.width.getD 0 - (if signed then 1 else 0) else 0
    let ds := digitsIn base upper n.natAbs
    let ds := List.replicate (least - ds.length) '0' ++ ds
    let ds :=
      if d.sharp then
        if base = 2 then '0' :: 'b' :: ds
        else if base = 8 then (if ds.head? = some '0' then ds else '0' :: ds)
        else if base = 16 then '0' :: (if upper then 'X' else 'x') :: ds
        else ds
      else ds
    let ds := if verb = 'O' then '0' :: 'o' :: ds else ds
    let ds :=
      if n < 0 then '-' :: ds else if d.plus then '+' :: ds else if d.space then ' ' :: ds else ds
    { d with zero := false }.pad ds

/-- Character with a code; codes that are none stand for the replacement character. -/
def charOf (n : Int) : Char :=
  if 0 ≤ n && n.toNat.isValidChar then Char.ofNat n.toNat else Text.replacement

/-- Quoted text of ASCII characters only. -/
def quoteAscii (quoteMark : Char) (cs : List Char) (ascii : Bool) : List Char :=
  let one (c : Char) : List Char :=
    if c == quoteMark || c == '\\' then ['\\', c]
    else if c == '"' || c == '\'' then [c]
    else if ascii && 0x80 ≤ c.toNat then
      if c.toNat < 0x10000 then ['\\', 'u'] ++ Text.hexDigits 4 c.toNat
      else ['\\', 'U'] ++ Text.hexDigits 8 c.toNat
    else Text.quoteChar c
  quoteMark :: cs.flatMap one ++ [quoteMark]

/-- A text can stand between backquotes. -/
def backquotable (cs : List Char) : Bool :=
  cs.all fun c => c != '\x60' && c != '\ufeff' && (c == '\t' || ' ' ≤ c) && c != '\x7f'

/-- A code point as `U+hhhh`. -/
def Directive.codePoint (d : Directive) (n : Int) : List Char :=
  let ds := digitsIn 16 true n.natAbs
  let ds := List.replicate (max (d.precision.getD 4) 4 - ds.length) '0' ++ ds
  let text := 'U' :: '+' :: ds
  let c := charOf n
  let text := if d.sharp && Text.isPrintable c then text ++ [' ', '\'', c, '\''] else text
  { d with zero := false }.pad text

/-- Bytes in hexadecimal digits. -/
def Directive.hex (d : Directive) (bytes : List UInt8) (upper : Bool) : List Char :=
  let bytes := match d.precision with
    | none => bytes
    | some p => bytes.take p
  let digit := if upper then Text.upperHexDigit else Text.hexDigit
  let lead : List Char := if d.sharp then ['0', if upper then 'X' else 'x'] else []
  let one (b : UInt8) : List Char := [digit (b.toNat / 16), digit (b.toNat % 16)]
  let text := match bytes with
    | [] => []
    | b :: more =>
      lead ++ one b ++
        more.flatMap fun b => if d.space then ' ' :: lead ++ one b else one b
  d.pad text

/-- Unsigned text of a finite number for the verbs `e`, `f` and `g`. -/
def Directive.unsignedReal (d : Directive) (x : Decimal.Binary) (verb : Char) : List Char :=
  let upper := verb = 'E' || verb = 'G'
  let mark := if upper then 'E' else 'e'
  let plainPlaces (ds : Decimal.Digits) : Nat := (ds.digits.length - ds.point).toNat
  match verb with
  | 'e' | 'E' =>
    let p := d.precision.getD 6
    Decimal.withExponent (x.withDigits (p + 1)) p mark 2
  | 'f' | 'F' =>
    let p := d.precision.getD 6
    Decimal.positional (x.downTo (-p)) p
  | _ =>
    let (ds, most) := match d.precision with
      | none => (x.shortest, (6 : Int))
      | some p =>
        let p := max p 1
        let ds := (x.withDigits p).trimmed
        (ds, if ds.digits.length < p && ds.point ≤ ds.digits.length then
          (ds.digits.length : Int) else p)
    let e := if ds.digits.isEmpty then 0 else ds.point - 1
    if e < -4 || most ≤ e then Decimal.withExponent ds (ds.digits.length - 1) mark 2
    else Decimal.positional ds (plainPlaces ds)

/-- Unsigned text of a finite number as a natural number and a power of two. -/
def binaryReal (x : Decimal.Binary) : List Char :=
  Nat.toDigits 10 x.m ++ Decimal.exponentChars 'p' 1 x.q

/-- A number below `2 ^ 61` with `places` of the fifteen hexadecimal digits behind its first bit, a
half going to the even neighbour. -/
def roundHex (m places : Nat) : Nat :=
  let unit := Decimal.powTwo (60 - 4 * places)
  let kept := m / unit
  let lost := 2 * (m % unit)
  (if unit < lost || (lost = unit && kept % 2 = 1) then kept + 1 else kept) * unit

/-- Unsigned text of a finite number in hexadecimal digits with a power of two. -/
def Directive.hexReal (d : Directive) (x : Decimal.Binary) : List Char :=
  let top := x.m.log2
  let m := roundHex (x.m * Decimal.powTwo (60 - top)) (min (d.precision.getD 15) 15)
  let e : Int := if x.m = 0 then 0 else x.q + top
  let (m, e) := if Decimal.powTwo 61 ≤ m then (m / 2, e + 1) else (m, e)
  let ds := Text.hexDigits 15 (m % Decimal.powTwo 60)
  let ds := match d.precision with
    | none => (ds.reverse.dropWhile (· == '0')).reverse
    | some p => ds.take p ++ List.replicate (p - 15) '0'
  let point : List Char := if ds.isEmpty then [] else ['.']
  ['0', 'x', Text.hexDigit (m / Decimal.powTwo 60)] ++ point ++ ds ++ Decimal.exponentChars 'p' 2 e

/-- An unsigned text with a point in any case; where the precision counts all digits, with zeros up to
it. -/
def Directive.sharpened (d : Directive) (verb : Char) (text : List Char) : List Char :=
  let hex := verb == 'x' || verb == 'X'
  let body := text.takeWhile fun c => !(c.toLower == 'p' || (!hex && c.toLower == 'e'))
  let wanted := if verb == 'g' || verb == 'G' || verb == 'x' then d.precision.getD 6 else 0
  let counted := ((body.filter (· != '.')).dropWhile (· == '0')).length
  let zeros := wanted - (if body = ['0'] then 1 else counted)
  body ++ (if body.contains '.' then [] else ['.']) ++ List.replicate zeros '0' ++
    text.drop body.length

/-- Unsigned text of a finite number. -/
def Directive.magnitude (d : Directive) (x : Decimal.Binary) (verb : Char) : List Char :=
  let text := match verb with
    | 'b' => binaryReal x
    | 'x' => d.hexReal x
    | 'X' => (d.hexReal x).map Text.upperAscii
    | _ => d.unsignedReal x verb
  if d.sharp && verb != 'b' then d.sharpened verb text else text

/-- A number that need not be whole. -/
def Directive.real (d : Directive) (x : Float) (verb : Char) : List Char :=
  if x.isNaN then { d with zero := false }.pad (if d.plus then "+NaN" else "NaN").toList
  else if x.isInf then
    { d with zero := false }.pad (if Decimal.isNegative x then "-Inf" else "+Inf").toList
  else
    let text := d.magnitude (Decimal.Binary.ofBits x.toBits) verb
    let sign : List Char :=
      if Decimal.isNegative x then ['-'] else if d.plus then ['+']
      else if d.space then [' '] else []
    if d.zero && !d.minus then sign ++ d.padding (d.width.getD 0 - text.length - sign.length) ++ text
    else d.pad (sign ++ text)

/-- Text of an argument for a verb that fits it. -/
def Directive.fitting? (d : Directive) (verb : Char) : Arg → Option (List Char)
  | .nothing => if verb = 'v' || verb = 'T' then some (d.pad "<nil>".toList) else none
  | .truth b =>
    if verb = 't' || verb = 'v' then some (d.pad (if b then "true" else "false").toList)
    else if verb = 'T' then some (d.pad (d.cut "bool".toList))
    else none
  | .text s =>
    let quoted : List Char :=
      let cs := d.cut s.toList
      d.pad (if d.sharp && backquotable cs then '\x60' :: cs ++ ['\x60']
        else quoteAscii '"' cs d.plus)
    match verb with
    | 'v' => some (if d.literal then quoted else d.pad (d.cut s.toList))
    | 's' => some (d.pad (d.cut s.toList))
    | 'q' => some quoted
    | 'x' => some (d.hex (Text.encode s) false)
    | 'X' => some (d.hex (Text.encode s) true)
    | 'T' => some (d.pad (d.cut "string".toList))
    | _ => none
  | .number n =>
    match verb with
    | 'v' | 'd' => some (d.integer n 10 false verb)
    | 'b' => some (d.integer n 2 false verb)
    | 'o' | 'O' => some (d.integer n 8 false verb)
    | 'x' => some (d.integer n 16 false verb)
    | 'X' => some (d.integer n 16 true verb)
    | 'c' => some (d.pad [charOf n])
    | 'q' => some (d.pad (quoteAscii '\'' [charOf n] d.plus))
    | 'U' => some (d.codePoint n)
    | 'T' => some (d.pad (d.cut "int64".toList))
    | _ => none
  | .real x =>
    match verb with
    | 'v' => some (d.real x 'g')
    | 'b' | 'x' | 'X' | 'e' | 'E' | 'f' | 'F' | 'g' | 'G' => some (d.real x verb)
    | 'T' => some (d.pad (d.cut "float64".toList))
    | _ => none

/-- Text of an argument; a verb that does not fit says so. -/
def Directive.argument (d : Directive) (verb : Char) (a : Arg) : List Char :=
  match d.fitting? verb a with
  | some text => text
  | none =>
    match a with
    | .nothing => '%' :: '!' :: verb :: "(<nil>)".toList
    | _ =>
      '%' :: '!' :: verb :: '(' :: a.type.toList ++ '=' :: (d.fitting? 'v' a).getD [] ++ [')']

/-- The largest width or precision. -/
def largest : Nat := 1000000

/-- A number at the start; one that is too large uses up the rest. -/
def leadingNumber (cs : List Char) : Option Nat × List Char :=
  let ds := cs.takeWhile Char.isDigit
  if ds.isEmpty then (none, cs)
  else
    let n := ds.foldl (fun n c => n * 10 + (c.toNat - 48)) 0
    if largest < n then (none, []) else (some n, cs.drop ds.length)

/-- What has been found out about a directive while it is read. -/
structure State where
  directive : Directive := {}
  /-- Position of the next argument. -/
  next : Nat
  /-- Arguments were chosen by number. -/
  reordered : Bool := false
  /-- The number of an argument is proper. -/
  good : Bool := true
  /-- Directly after the number of an argument. -/
  afterIndex : Bool := false
  out : List Char := []

/-- The number of an argument in brackets, if one stands at the start. -/
def State.index (s : State) (count : Nat) (cs : List Char) : State × List Char :=
  match cs with
  | '[' :: more =>
    let s := { s with reordered := true }
    if !more.contains ']' then ({ s with good := false, afterIndex := false }, more)
    else
      let inside := more.takeWhile (· != ']')
      let rest := more.drop (inside.length + 1)
      match leadingNumber inside with
      | (some n, []) =>
        if 1 ≤ n && n ≤ count then ({ s with next := n - 1, afterIndex := true }, rest)
        else ({ s with good := false, afterIndex := true }, rest)
      | _ => ({ s with good := false, afterIndex := false }, rest)
  | _ => ({ s with afterIndex := false }, cs)

/-- A whole number of moderate size taken from the arguments. -/
def State.integerArg (s : State) (args : Array Arg) : State × Option Int :=
  match args[s.next]? with
  | none => (s, none)
  | some a =>
    let s := { s with next := s.next + 1 }
    match a with
    | .number n => (s, if n.natAbs ≤ largest then some n else none)
    | _ => (s, none)

/-- Flags at the start. -/
def flags (d : Directive) : List Char → Directive × List Char
  | '#' :: more => flags { d with sharp := true } more
  | '0' :: more => flags { d with zero := true } more
  | '+' :: more => flags { d with plus := true } more
  | '-' :: more => flags { d with minus := true } more
  | ' ' :: more => flags { d with space := true } more
  | cs => (d, cs)

/-- The width. -/
def State.readWidth (s : State) (args : Array Arg) (cs : List Char) : State × List Char :=
  match cs with
  | '*' :: more =>
    let (s, n) := s.integerArg args
    let s := { s with afterIndex := false }
    match n with
    | none => ({ s with out := s.out ++ "%!(BADWIDTH)".toList }, more)
    | some n =>
      let d := { s.directive with width := some n.natAbs }
      ({ s with directive := if n < 0 then { d with minus := true, zero := false } else d }, more)
  | _ =>
    let (n, rest) := leadingNumber cs
    ({ s with directive := { s.directive with width := n }
              good := s.good && !(s.afterIndex && n.isSome) }, rest)

/-- The precision. -/
def State.readPrecision (s : State) (args : Array Arg) (cs : List Char) : State × List Char :=
  match cs with
  | '.' :: more =>
    let s := { s with good := s.good && !s.afterIndex }
    let (s, cs) := s.index args.size more
    match cs with
    | '*' :: more =>
      let (s, n) := s.integerArg args
      let s := { s with afterIndex := false }
      match n with
      | some n =>
        if n < 0 then ({ s with out := s.out ++ "%!(BADPREC)".toList }, more)
        else ({ s with directive := { s.directive with precision := some n.toNat } }, more)
      | none => ({ s with out := s.out ++ "%!(BADPREC)".toList }, more)
    | _ =>
      let (n, rest) := leadingNumber cs
      ({ s with directive := { s.directive with precision := some (n.getD 0) } }, rest)
  | _ => (s, cs)

/-- Reads and fills in one directive, behind its `%`. Gives the rest, unless the text ended. -/
def State.fill (s : State) (args : Array Arg) (cs : List Char) : State × Option (List Char) :=
  let (d, cs) := flags {} cs
  let s := { s with directive := d, good := true, afterIndex := false, out := [] }
  let (s, cs) := s.index args.size cs
  let (s, cs) := s.readWidth args cs
  let (s, cs) := s.readPrecision args cs
  let (s, cs) := if s.afterIndex then (s, cs) else s.index args.size cs
  match cs with
  | [] => ({ s with out := s.out ++ "%!(NOVERB)".toList }, none)
  | '%' :: more => ({ s with out := s.out ++ ['%'] }, some more)
  | verb :: more =>
    let wrong (why : String) : List Char := '%' :: '!' :: verb :: why.toList
    if !s.good then ({ s with out := s.out ++ wrong "(BADINDEX)" }, some more)
    else
      match args[s.next]? with
      | none => ({ s with out := s.out ++ wrong "(MISSING)" }, some more)
      | some a =>
        let d := s.directive
        let d := if verb = 'v' then { d with literal := d.sharp, sharp := false, plus := false }
          else d
        ({ s with out := s.out ++ d.argument verb a, next := s.next + 1 }, some more)

/-- Text of the rest of a template; `fuel` bounds the number of directives. -/
def fillFrom (args : Array Arg) : Nat → State → List Char → List Char × State
  | 0, s, _ => ([], s)
  | fuel + 1, s, cs =>
    let plain := cs.takeWhile (· != '%')
    match cs.drop plain.length with
    | [] => (plain, s)
    | _ :: rest =>
      let (s, rest) := s.fill args rest
      match rest with
      | none => (plain ++ s.out, s)
      | some rest =>
        let out := s.out
        let (more, s) := fillFrom args fuel s rest
        (plain ++ out ++ more, s)

/-- Arguments that no directive asked for. -/
def extra (args : List Arg) : List Char :=
  let one (a : Arg) : String :=
    match a with
    | .nothing => "<nil>"
    | a => a.type ++ "=" ++ String.ofList (({} : Directive).argument 'v' a)
  ("%!(EXTRA " ++ ", ".intercalate (args.map one) ++ ")").toList

/-- Message of a template. -/
def message (template : String) (args : List Arg) : String :=
  let (text, s) := fillFrom args.toArray (template.length + 1) { next := 0 } template.toList
  let left := args.drop s.next
  String.ofList (if s.reordered || left.isEmpty then text else text ++ extra left)

end PollSocket.Log.Template
