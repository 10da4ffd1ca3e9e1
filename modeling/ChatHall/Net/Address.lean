/-
# Socket addresses

An IPv4 or IPv6 address with a port, read from text and written in its shortest
canonical form. Reading accepts the standard notations only: no spaces, no signs,
no leading zeros in an IPv4 octet.
-/

namespace ChatHall.Net

/-- An address without a port. -/
inductive Host
  | v4 (a b c d : UInt8)
  | v6 (groups : Vector UInt16 8) (scope : UInt32)
  deriving Repr, DecidableEq

structure Address where
  host : Host
  port : UInt16
  deriving Repr, DecidableEq

namespace Address

/-- A reader takes a value off the front of a text, or fails and leaves the text alone. -/
abbrev Reader (α : Type) := List Char → Option (α × List Char)

/-- The value of a digit in a base of at most sixteen. -/
def digit? (base : Nat) (c : Char) : Option Nat :=
  let n :=
    if '0' ≤ c && c ≤ '9' then c.toNat - '0'.toNat
    else if 'a' ≤ c && c ≤ 'f' then c.toNat - 'a'.toNat + 10
    else if 'A' ≤ c && c ≤ 'F' then c.toNat - 'A'.toNat + 10
    else base
  if n < base then some n else none

/-- The digits at the front of a text as a number, their count, and the rest. -/
def digits (base : Nat) (value count : Nat) : List Char → Nat × Nat × List Char
  | [] => (value, count, [])
  | c :: s =>
    match digit? base c with
    | some d => digits base (value * base + d) (count + 1) s
    | none => (value, count, c :: s)

/-- A number of at most `maxDigits` digits (if given) and at most `limit`. -/
def number (base : Nat) (maxDigits : Option Nat) (leadingZeros : Bool) (limit : Nat) :
    Reader Nat := fun s =>
  let (value, count, rest) := digits base 0 0 s
  let tooLong := maxDigits.any (· < count)
  let padded := s.head? = some '0' && 1 < count
  if count = 0 || tooLong || (padded && !leadingZeros) || limit < value then none
  else some (value, rest)

def char (c : Char) : Reader Unit
  | [] => none
  | d :: s => if c = d then some ((), s) else none

/-- A reader behind a separator, which the first of several values does without. -/
def separated {α : Type} (sep : Char) (index : Nat) (read : Reader α) : Reader α := fun s =>
  if index = 0 then read s else do
    let ((), s) ← char sep s
    read s

/-- Four octets with dots between them. -/
def octets : Reader (UInt8 × UInt8 × UInt8 × UInt8) := fun s => do
  let octet : Reader UInt8 := fun s =>
    (number 10 (some 3) false 255 s).map fun (n, rest) => (UInt8.ofNat n, rest)
  let (a, s) ← octet s
  let (b, s) ← separated '.' 1 octet s
  let (c, s) ← separated '.' 2 octet s
  let (d, s) ← separated '.' 3 octet s
  some ((a, b, c, d), s)

/-- The group that two octets stand for. -/
def pair (high low : UInt8) : UInt16 := high.toUInt16 * 256 + low.toUInt16

/-- At most `room` groups, the first of which has number `index`, and whether
they end with an embedded IPv4 address, which takes the place of two. -/
def groups : (room index : Nat) → List Char → List UInt16 × Bool × List Char
  | 0, _, s => ([], false, s)
  | room + 1, index, s =>
    match if room = 0 then none else separated ':' index octets s with
    | some ((a, b, c, d), rest) => ([pair a b, pair c d], true, rest)
    | none =>
      match separated ':' index (number 16 (some 4) true 0xFFFF) s with
      | none => ([], false, s)
      | some (g, rest) =>
        let (later, embedded, rest) := groups room (index + 1) rest
        (UInt16.ofNat g :: later, embedded, rest)

/-- Eight groups, of which a double colon leaves out at least one zero group. -/
def groupList : Reader (List UInt16) := fun s =>
  let (head, embedded, s) := groups 8 0 s
  if head.length = 8 then some (head, s)
  else if embedded then none
  else do
    let ((), s) ← char ':' s
    let ((), s) ← char ':' s
    let (tail, _, s) := groups (7 - head.length) 0 s
    some (head ++ List.replicate (8 - head.length - tail.length) 0 ++ tail, s)

/-- Exactly eight groups as an address. -/
def eightGroups : Reader (Vector UInt16 8) := fun s => do
  let (gs, s) ← groupList s
  if h : gs.length = 8 then some (⟨gs.toArray, by simpa using h⟩, s) else none

def portNumber : Reader UInt16 := fun s => do
  let ((), s) ← char ':' s
  let (port, s) ← number 10 none true 0xFFFF s
  some (UInt16.ofNat port, s)

def readV4 : Reader Address := fun s => do
  let ((a, b, c, d), s) ← octets s
  let (port, s) ← portNumber s
  some (⟨.v4 a b c d, port⟩, s)

def readV6 : Reader Address := fun s => do
  let ((), s) ← char '[' s
  let (eight, s) ← eightGroups s
  let zone : Option (Nat × List Char) := do
    let ((), s) ← char '%' s
    number 10 none true 0xFFFFFFFF s
  let (scope, s) := zone.getD (0, s)
  let ((), s) ← char ']' s
  let (port, s) ← portNumber s
  some (⟨.v6 eight (UInt32.ofNat scope), port⟩, s)

def parse? (text : String) : Option Address :=
  match (readV4 text.toList).orElse fun () => readV6 text.toList with
  | some (address, []) => some address
  | _ => none

def mapped? : List UInt16 → Option (UInt8 × UInt8 × UInt8 × UInt8)
  | [0, 0, 0, 0, 0, 0xFFFF, x, y] =>
    some ((x / 256).toUInt8, x.toUInt8, (y / 256).toUInt8, y.toUInt8)
  | _ => none

def showOctets (a b c d : UInt8) : String :=
  s!"{a}.{b}.{c}.{d}"

def showGroups (gs : List UInt16) : String :=
  ":".intercalate (gs.map fun g => String.ofList (Nat.toDigits 16 g.toNat))

/-- The start and the length of the longest run of zeros, the first of equals. -/
def longestZeros (gs : List UInt16) : Nat × Nat :=
  let step (state : Nat × Nat × Nat × Nat) (g : UInt16) : Nat × Nat × Nat × Nat :=
    let (index, run, start, longest) := state
    if g ≠ 0 then (index + 1, 0, start, longest)
    else if longest < run + 1 then (index + 1, run + 1, index - run, run + 1)
    else (index + 1, run + 1, start, longest)
  (gs.foldl step (0, 0, 0, 0)).2.2

/-- An IPv6 address: the longest run of two or more zero groups is left out, and
a mapped IPv4 address is dotted. -/
def showV6 (gs : List UInt16) : String :=
  match mapped? gs with
  | some (a, b, c, d) => "::ffff:" ++ showOctets a b c d
  | none =>
    let (start, run) := longestZeros gs
    if 1 < run then showGroups (gs.take start) ++ "::" ++ showGroups (gs.drop (start + run))
    else showGroups gs

def toText (a : Address) : String :=
  match a.host with
  | .v4 b c d e => s!"{showOctets b c d e}:{a.port}"
  | .v6 eight scope =>
    let shown := showV6 eight.toList
    if scope = 0 then s!"[{shown}]:{a.port}" else s!"[{shown}%{scope}]:{a.port}"

def isV4 (a : Address) : Bool :=
  match a.host with
  | .v4 .. => true
  | .v6 .. => false

end Address

end ChatHall.Net
