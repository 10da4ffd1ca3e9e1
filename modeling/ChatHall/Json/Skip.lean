/-
# Values that nobody wants to know

A value is skipped by keeping the brackets that are open. Only its form is
checked: numbers may be of any size, texts need not be Unicode, and brackets may
nest to any depth.
-/

import ChatHall.Json.Number
import ChatHall.Json.Text

namespace ChatHall.Json.Skip

open Reader

inductive Bracket
  | list
  | object
  deriving Repr, DecidableEq

namespace Bracket

def closer : Bracket → UInt8
  | list => 0x5D
  | object => 0x7D

def atEnd : Bracket → Cause
  | list => .endOfList
  | object => .endOfObject

/-- The fault if a value is followed neither by a comma nor by the closer. -/
def expectedEnd : Bracket → Cause
  | list => .expectedListEnd
  | object => .expectedObjectEnd

end Bracket

/-- A scalar of which only the form is checked, or an opening bracket. -/
def front : Reader (Option Bracket) := fun s =>
  let s := skipBlanks s
  match s with
  | [] => .error (faultAfter .endOfValue [])
  | b :: rest =>
    if b == 0x5B then .ok (some .list, rest)
    else if b == 0x7B then .ok (some .object, rest)
    else if b == 0x22 then (Text.skip rest).map fun rest => (none, rest)
    else if b == 0x6E then (word ['u', 'l', 'l'] rest).map fun ((), rest) => (none, rest)
    else if b == 0x74 then (word ['r', 'u', 'e'] rest).map fun ((), rest) => (none, rest)
    else if b == 0x66 then (word ['a', 'l', 's', 'e'] rest).map fun ((), rest) => (none, rest)
    else if b == 0x2D || Literal.isDigit b then
      (Literal.read .badNumber s).map fun (_, rest) => (none, rest)
    else .error (faultAt .expectedValue s)

/-- The key in front of a value, if the bracket calls for one. -/
def key : Bracket → Bytes → Except Fault Bytes
  | .list, s => .ok s
  | .object, s =>
    let s := skipBlanks s
    match s with
    | [] => .error (faultAfter .endOfObject [])
    | b :: rest =>
      if b == 0x22 then do
        let s ← Text.skip rest
        let ((), s) ← colon s
        .ok s
      else .error (faultAt .keyNotText s)

/-- Goes on inside the open brackets, innermost first, up to the front of the next value
or until all are closed. `first` tells whether the innermost one has just been opened. -/
def resume : (brackets : List Bracket) → (first : Bool) → Reader (List Bracket)
  | [], _, s => .ok ([], s)
  | b :: outer, first, s =>
    let s := skipBlanks s
    match s with
    | [] => .error (faultAfter b.atEnd [])
    | c :: rest =>
      if c == b.closer then resume outer false rest
      else if first then (key b s).map fun s => (b :: outer, s)
      else if c == 0x2C then (key b rest).map fun s => (b :: outer, s)
      else .error (faultAt b.expectedEnd s)

/-- Skips values until no bracket is open. -/
def skipFrom : (fuel : Nat) → (brackets : List Bracket) → Bytes → Except Fault Bytes
  | 0, _, s => .error (faultAfter .endOfValue s)
  | fuel + 1, brackets, s => do
    let (opened, s) ← front s
    let (brackets, s) ←
      match opened with
      | none => resume brackets false s
      | some b => resume (b :: brackets) true s
    if brackets.isEmpty then .ok s else skipFrom fuel brackets s

/-- The rest behind a value. Every value has a byte, so the fuel suffices. -/
def value (s : Bytes) : Except Fault Bytes := skipFrom (s.length + 1) [] s

end ChatHall.Json.Skip
