set_option autoImplicit false

/-!
# Decimal digits of binary numbers

A finite number is a natural number times a power of two. Its digits are found by exact arithmetic:
either as many as asked for, rounded to the nearest with a half going to the even neighbour, or the
fewest that lie closer to the number than to any other one of its kind.
-/

namespace PollSocket.Decimal

/-- A power of two. -/
def powTwo (n : Nat) : Nat := Nat.pow 2 n

/-- A power of ten. -/
def powTen (n : Nat) : Nat := Nat.pow 10 n

/-- The first natural number that is no signed word of 64 bits. -/
def signedBound : Nat := 0x8000000000000000

/-- The first natural number that is no word of 64 bits. -/
def unsignedBound : Nat := 0x10000000000000000

/-- A finite number that is not negative: `m * 2 ^ q`. -/
structure Binary where
  m : Nat
  q : Int
  /-- The next number below is half as far away as the next above. -/
  narrowBelow : Bool
  deriving DecidableEq, Inhabited

/-- The number with the given bits, the sign apart. -/
def Binary.ofBits (bits : UInt64) : Binary :=
  let exponent := ((bits >>> 52) &&& 0x7FF).toNat
  let fraction := (bits &&& 0xFFFFFFFFFFFFF).toNat
  if exponent = 0 then ⟨fraction, -1074, false⟩
  else ⟨powTwo 52 + fraction, (exponent : Int) - 1075, fraction == 0 && 1 < exponent⟩

/-- Digits `d₁d₂…dₙ` with the point in front of them moved `point` places to the right. -/
structure Digits where
  digits : List Nat
  point : Int
  deriving DecidableEq, Inhabited

/-- Digits of a natural number, none for zero. -/
def digitsOf (n : Nat) : List Nat := if n = 0 then [] else (Nat.toDigits 10 n).map fun c => c.toNat - 48

/-- Without zeros at the end. -/
def Digits.trimmed (d : Digits) : Digits :=
  { d with digits := (d.digits.reverse.dropWhile (· == 0)).reverse }

namespace Binary

/-- Numerator of the number over `10 ^ scale`. -/
def numerator (x : Binary) (scale : Int) : Nat := x.m * powTwo x.q.toNat * powTen (-scale).toNat

/-- Denominator of the number over `10 ^ scale`. -/
def denominator (x : Binary) (scale : Int) : Nat := powTwo (-x.q).toNat * powTen scale.toNat

/-- Least `k` from `k` on with the number below `10 ^ k`; `fuel` bounds the search. -/
def findScale (x : Binary) : Nat → Int → Int
  | 0, k => k
  | fuel + 1, k => if x.numerator k < x.denominator k then k else findScale x fuel (k + 1)

/-- Number of places in front of the point: the number is below `10 ^ scale` and not below
`10 ^ (scale - 1)`. -/
def scale (x : Binary) : Int :=
  let bits : Int := x.m.log2 + x.q
  x.findScale 8 (Int.fdiv (bits * 30103) 100000 - 1)

/-- Comparison of `a * 10 ^ i` with `n * 2 ^ j`. -/
def compareScaled (a : Nat) (i : Int) (n : Nat) (j : Int) : Ordering :=
  compare (a * powTen i.toNat * powTwo (-j).toNat) (n * powTwo j.toNat * powTen (-i).toNat)

/-- `a * 10 ^ i` is closer to the number than to its neighbours; in the middle the even one wins. -/
def standsFor (x : Binary) (a : Nat) (i : Int) : Bool :=
  let low := if x.narrowBelow then 4 * x.m - 1 else 4 * x.m - 2
  let even := x.m % 2 == 0
  let below := compareScaled a i low (x.q - 2)
  let above := compareScaled a i (4 * x.m + 2) (x.q - 2)
  (below == .gt || (even && below == .eq)) && (above == .lt || (even && above == .eq))

/-- The number over `10 ^ i`, rounded to the nearest; a half goes to the even neighbour. -/
def roundAt (x : Binary) (i : Int) : Nat :=
  let n := x.numerator i
  let d := x.denominator i
  let floor := n / d
  let twice := 2 * (n % d)
  if twice < d then floor
  else if d < twice then floor + 1
  else if floor % 2 == 0 then floor else floor + 1

/-- Digits of the first grid, from `n` digits on, on which a neighbour of the number stands for it. -/
def search (x : Binary) (k : Int) : Nat → Nat → Digits
  | 0, n => ⟨digitsOf (x.roundAt (k - n)), k⟩
  | fuel + 1, n =>
    let i := k - n
    let floor := x.numerator i / x.denominator i
    let near := x.roundAt i
    let other := if near = floor then floor + 1 else floor
    if x.standsFor near i then place near i
    else if x.standsFor other i then place other i
    else search x k fuel (n + 1)
where
  /-- Digits of `a * 10 ^ i`. -/
  place (a : Nat) (i : Int) : Digits :=
    let ds := digitsOf a
    ⟨ds, i + ds.length⟩

/-- The fewest digits that stand for the number. -/
def shortest (x : Binary) : Digits :=
  if x.m = 0 then ⟨[], 0⟩ else (x.search x.scale 17 1).trimmed

/-- Digits down to the place `10 ^ i`, rounded. -/
def downTo (x : Binary) (i : Int) : Digits :=
  let ds := digitsOf (x.roundAt i)
  ⟨ds, i + ds.length⟩

/-- `n` digits, rounded. -/
def withDigits (x : Binary) (n : Nat) : Digits :=
  if x.m = 0 then ⟨[], 0⟩
  else
    let d := x.downTo (x.scale - n)
    { d with digits := d.digits.take n }

end Binary

end PollSocket.Decimal
