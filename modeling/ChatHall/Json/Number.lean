/-
# Numbers

The digits of a number and the value they have: an integer if there is neither
fraction nor exponent and 64 bits hold it, and a float otherwise. A float is its
leading digits, as many as 64 bits hold, scaled by a power of ten in one or more
rounded steps.
-/

import ChatHall.Json.Reader

namespace ChatHall.Json

/-- A number as it is written. -/
structure Literal where
  negative : Bool
  whole : List Nat
  fraction : List Nat := []
  /-- The sign of the exponent, true for minus, and its digits. -/
  exponent : Option (Bool × List Nat) := none
  deriving Repr, DecidableEq

inductive Number
  | integer (n : Int)
  /-- A float, by its bits. -/
  | floating (bits : UInt64)
  deriving Repr, DecidableEq

def Number.scalar : Number → Scalar
  | integer n => .integer n
  | floating bits => .floating bits

namespace Literal

def digit? (b : UInt8) : Option Nat :=
  if 0x30 ≤ b && b ≤ 0x39 then some (b.toNat - 0x30) else none

def isDigit (b : UInt8) : Bool := (digit? b).isSome

/-- The digits at the front, and the rest. -/
def digits (s : Bytes) : List Nat × Bytes :=
  ((s.takeWhile isDigit).filterMap digit?, s.dropWhile isDigit)

/-- The whole part, without its sign. `atEnd` is the fault if the input ends too early. -/
def readWhole (atEnd : Cause) : Reader (List Nat)
  | [] => .error (faultAfter atEnd [])
  | b :: s =>
    match digit? b with
    | none => .error (faultAfter .badNumber s)
    | some 0 =>
      match s with
      | [] => .ok ([0], [])
      | b₁ :: rest =>
        if isDigit b₁ then .error (faultAt .badNumber s) else .ok ([0], b₁ :: rest)
    | some d =>
      let (later, rest) := digits s
      .ok (d :: later, rest)

/-- The fraction, if there is a point. -/
def readFraction (atEnd : Cause) : Reader (List Nat)
  | [] => .ok ([], [])
  | b :: s =>
    if b == 0x2E then
      match digits s with
      | ([], []) => .error (faultAfter atEnd [])
      | ([], b :: rest) => .error (faultAt .badNumber (b :: rest))
      | (ds, rest) => .ok (ds, rest)
    else .ok ([], b :: s)

/-- The exponent, if there is its letter. -/
def readExponent (atEnd : Cause) : Reader (Option (Bool × List Nat))
  | [] => .ok (none, [])
  | b :: s =>
    if b == 0x65 || b == 0x45 then
      let (negative, s) :=
        match s with
        | [] => (false, [])
        | b :: rest =>
          if b == 0x2D then (true, rest) else if b == 0x2B then (false, rest) else (false, b :: rest)
      match s with
      | [] => .error (faultAfter atEnd [])
      | b :: rest =>
        match digit? b with
        | none => .error (faultAfter .badNumber rest)
        | some d =>
          let (later, rest) := digits rest
          .ok (some (negative, d :: later), rest)
    else .ok (none, b :: s)

def read (atEnd : Cause) : Reader Literal := fun s => do
  let (negative, s) :=
    match s with
    | [] => (false, [])
    | b :: rest => if b == 0x2D then (true, rest) else (false, b :: rest)
  let (whole, s) ← readWhole atEnd s
  let (fraction, s) ← readFraction atEnd s
  let (exponent, s) ← readExponent atEnd s
  .ok ({ negative, whole, fraction, exponent }, s)

/-- The largest number of 64 bits, and the largest exponent. -/
def maxSignificand : Nat := UInt64.size - 1

@[inherit_doc maxSignificand]
def maxExponent : Nat := UInt32.size / 2 - 1

/-- Appends digits to a number while it stays within a limit: the number, how many
digits were appended, and the digits left over. -/
def absorb (limit value used : Nat) : List Nat → Nat × Nat × List Nat
  | [] => (value, used, [])
  | d :: ds =>
    if limit < value * 10 + d then (value, used, d :: ds)
    else absorb limit (value * 10 + d) (used + 1) ds

def powerOfTen (n : Nat) : Float := Float.ofScientific 1 false n

/-- A non-negative float times a power of ten, or nothing if that is too large. Powers
beyond those that floats have are taken in steps. -/
def scale (x : Float) (e : Int) : Option Float :=
  if e.natAbs ≤ 308 then
    if 0 ≤ e then
      let y := x * powerOfTen e.natAbs
      if y.isInf then none else some y
    else some (x / powerOfTen e.natAbs)
  else if x == 0 then some x
  else if 0 ≤ e then none
  else scale (x / powerOfTen 308) (e + 308)
termination_by e.natAbs
decreasing_by omega

/-- A float with a sign, by its bits. -/
def signed (negative : Bool) (x : Float) : UInt64 := (if negative then -x else x).toBits

/-- A number without fraction and exponent, if 64 bits hold it. -/
def integer? (negative : Bool) (n : Nat) : Number :=
  if !negative then .integer n
  else if n ≠ 0 && n ≤ UInt64.size / 2 then .integer (-n)
  else .floating (signed true (Float.ofNat n))

def value (l : Literal) (rest : Bytes) : Except Fault Number :=
  let (whole, _, dropped) := absorb maxSignificand 0 0 l.whole
  if dropped.isEmpty && l.fraction.isEmpty && l.exponent.isNone then
    .ok (integer? l.negative whole)
  else
    let (significand, used, _) := absorb maxSignificand whole 0 l.fraction
    let start : Int := (dropped.length : Int) - used
    let scaled (e : Int) : Except Fault Number :=
      match scale (Float.ofNat significand) e with
      | some x => .ok (.floating (signed l.negative x))
      | none => .error (faultAfter .numberTooLarge rest)
    match l.exponent with
    | none => scaled start
    | some (negative, ds) =>
      match absorb maxExponent 0 0 ds with
      | (e, _, []) => scaled (if negative then start - e else start + e)
      | (_, _, _ :: later) =>
        if significand ≠ 0 && !negative then
          .error ⟨.numberTooLarge, some (later.length + rest.length)⟩
        else .ok (.floating (signed l.negative 0))

end Literal

def Number.read : Reader Number := fun s => do
  let (literal, rest) ← Literal.read .endOfValue s
  let n ← literal.value rest
  .ok (n, rest)

end ChatHall.Json
