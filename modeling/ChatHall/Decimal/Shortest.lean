/-
# The shortest decimal of a float

The fewest digits that read back as the same float, and of those the ones
nearest to it. A finite float is `m * 2 ^ q`; the reals that round to it form an
interval, and the first decimal grid with a point in it gives the digits.
-/

namespace ChatHall.Decimal

/-- A positive number as `digits * 10 ^ (exponent + 1 - count)`, where `count` is the
number of digits: the first digit stands for `10 ^ exponent`. -/
structure Scientific where
  digits : List Nat
  exponent : Int
  deriving Repr, DecidableEq

namespace Shortest

/-- The reals between `low / unit` and `high / unit` around `value / unit`; the ends
belong to them if `closed`. -/
structure Interval where
  low : Nat
  value : Nat
  high : Nat
  unit : Nat
  closed : Bool

/-- Two to the power `e`, or one if `e` is negative. -/
def twoTo (e : Int) : Nat := Nat.pow 2 e.toNat

/-- Ten to the power `e`, or one if `e` is negative. -/
def tenTo (e : Int) : Nat := Nat.pow 10 e.toNat

/-- The reals that round to the float with these bits, its sign left out. -/
def interval (bits : UInt64) : Interval :=
  let fraction : Nat := bits.toNat % twoTo 52
  let biased : Nat := bits.toNat / twoTo 52 % twoTo 11
  let m : Nat := if biased = 0 then fraction else twoTo 52 + fraction
  let q : Int := if biased = 0 then -1074 else (biased : Int) - 1075
  let below := if fraction = 0 && 1 < biased then 1 else 2
  let scale := twoTo (q - 2)
  { low := (4 * m - below) * scale
    value := 4 * m * scale
    high := (4 * m + 2) * scale
    unit := twoTo (2 - q)
    closed := m % 2 = 0 }

/-- Whether `n * 10 ^ e` lies in the interval. -/
def Interval.contains (i : Interval) (n : Nat) (e : Int) : Bool :=
  let point := n * tenTo e * i.unit
  let scale := tenTo (-e)
  if i.closed then i.low * scale ≤ point && point ≤ i.high * scale
  else i.low * scale < point && point < i.high * scale

/-- The point of the grid `10 ^ e` at or below the value. -/
def Interval.floor (i : Interval) (e : Int) : Nat :=
  i.value * tenTo (-e) / (i.unit * tenTo e)

/-- The point of the grid `10 ^ e` in the interval, the nearer one of two and the
even one of two equally near. -/
def Interval.point? (i : Interval) (e : Int) : Option Nat :=
  let below := i.floor e
  let above := below + 1
  match i.contains below e, i.contains above e with
  | false, false => none
  | true, false => some below
  | false, true => some above
  | true, true =>
    let middle := (below + above) * tenTo e * i.unit
    let value := 2 * i.value * tenTo (-e)
    if value < middle || (value = middle && below % 2 = 0) then some below else some above

/-- The largest `e` with `10 ^ e` at or below the value, sought downward from `e`. -/
def Interval.exponentFrom (i : Interval) : (fuel : Nat) → (e : Int) → Int
  | 0, e => e
  | fuel + 1, e => if i.floor e = 0 then i.exponentFrom fuel (e - 1) else e

/-- The point on the first of the grids `10 ^ e`, `10 ^ (e - 1)`, … that has one. -/
def Interval.firstPoint (i : Interval) : (fuel : Nat) → (e : Int) → Nat × Int
  | 0, e => (i.floor e, e)
  | fuel + 1, e =>
    match i.point? e with
    | some n => (n, e)
    | none => i.firstPoint fuel (e - 1)

end Shortest

/-- The shortest decimal of the positive finite float with these bits. -/
def shortest (bits : UInt64) : Scientific :=
  let i := Shortest.interval bits
  let (n, e) := i.firstPoint 20 (i.exponentFrom 700 309)
  let digits := (Nat.toDigits 10 n).map fun c => c.toNat - '0'.toNat
  { digits := (digits.reverse.dropWhile (· = 0)).reverse
    exponent := e + digits.length - 1 }

def digitText (digits : List Nat) : String := String.ofList (digits.map Nat.digitChar)

/-- A number in positional notation, with at least one digit on each side of the point. -/
def Scientific.positional (s : Scientific) : String :=
  if s.exponent < 0 then
    "0." ++ digitText (List.replicate (s.exponent.natAbs - 1) 0 ++ s.digits)
  else
    let whole := s.exponent.toNat + 1
    let front := s.digits.take whole ++ List.replicate (whole - s.digits.length) 0
    let back := s.digits.drop whole
    digitText front ++ "." ++ digitText (if back.isEmpty then [0] else back)

/-- A number with one digit in front of the point and a signed exponent behind it. -/
def Scientific.exponential (s : Scientific) : String :=
  let back := s.digits.drop 1
  let fraction := if back.isEmpty then "" else "." ++ digitText back
  let sign := if s.exponent < 0 then "-" else "+"
  s!"{digitText (s.digits.take 1)}{fraction}e{sign}{s.exponent.natAbs}"

/-- The text of the finite float with these bits: positional from `10 ^ -5` up to
`10 ^ 16`, exponential outside. -/
def floatText (bits : UInt64) : String :=
  let sign := if bits.toNat / Shortest.twoTo 63 = 1 then "-" else ""
  let magnitude := UInt64.ofNat (bits.toNat % Shortest.twoTo 63)
  if magnitude = 0 then sign ++ "0.0"
  else
    let s := shortest magnitude
    sign ++ if -5 ≤ s.exponent && s.exponent < 16 then s.positional else s.exponential

end ChatHall.Decimal
