/-
# The front of a value

A value is a scalar, which is read whole, or starts with an opening bracket.
Readers for values of one type judge the scalar that they find.
-/

import ChatHall.Json.Number
import ChatHall.Json.Text

namespace ChatHall.Json

inductive Front
  | scalar (x : Scalar)
  | list
  | object
  deriving Repr, DecidableEq

namespace Reader

/-- A scalar, or an opening bracket, behind which the reader then stands. -/
def front : Reader Front := fun s =>
  let s := skipBlanks s
  match s with
  | [] => .error (faultAfter .endOfValue [])
  | b :: rest =>
    if b == 0x5B then .ok (.list, rest)
    else if b == 0x7B then .ok (.object, rest)
    else if b == 0x22 then (Text.read rest).map fun (t, rest) => (.scalar (.text t), rest)
    else if b == 0x6E then
      (word ['u', 'l', 'l'] rest).map fun ((), rest) => (.scalar .null, rest)
    else if b == 0x74 then
      (word ['r', 'u', 'e'] rest).map fun ((), rest) => (.scalar (.boolean true), rest)
    else if b == 0x66 then
      (word ['a', 'l', 's', 'e'] rest).map fun ((), rest) => (.scalar (.boolean false), rest)
    else if b == 0x2D || Literal.isDigit b then
      (Number.read s).map fun (n, rest) => (.scalar n.scalar, rest)
    else .error (faultAt .expectedValue s)

/-- The fault of a value of the wrong type, in front of its `rest`. -/
def wrongFront (expected : String) (front : Front) (rest : Bytes) : Fault :=
  match front with
  | .scalar x => faultAfter (.wrongType (.scalar x) expected) rest
  | .list => ⟨.wrongType .sequence expected, some (rest.length + 1)⟩
  | .object => ⟨.wrongType .map expected, some (rest.length + 1)⟩

/-- A scalar that `pick` accepts. -/
def scalar {α : Type} (expected : String) (pick : Found → Except Cause α) : Reader α := fun s => do
  let (front, rest) ← front s
  match front with
  | .scalar x =>
    match pick (.scalar x) with
    | .ok a => .ok (a, rest)
    | .error cause => .error (faultAfter cause rest)
  | other => .error (wrongFront expected other rest)

end Reader

namespace Found

def text? (expected : String) : Found → Except Cause String
  | scalar (.text s) => .ok s
  | other => .error (.wrongType other expected)

def boolean? (expected : String) : Found → Except Cause Bool
  | scalar (.boolean b) => .ok b
  | other => .error (.wrongType other expected)

/-- The integer that was found, if it lies within a range. -/
def integer? (expected : String) (least greatest : Int) : Found → Except Cause Int
  | scalar (.integer n) =>
    if least ≤ n && n ≤ greatest then .ok n
    else .error (.wrongValue (.scalar (.integer n)) expected)
  | other => .error (.wrongType other expected)

def null? (expected : String) : Found → Except Cause Unit
  | scalar .null => .ok ()
  | other => .error (.wrongType other expected)

/-- What the name that was found stands for. -/
def name? {α : Type} (names : List (String × α)) (found : Found) : Except Cause α := do
  let name ← text? "variant identifier" found
  match names.lookup name with
  | some a => .ok a
  | none => .error (.unknownVariant name (names.map (·.1)))

end Found

namespace Reader

def text : Reader String := scalar "a string" (Found.text? "a string")

/-- A natural number of 64 bits; `expected` names its type. -/
def natural (expected : String) : Reader UInt64 := fun s =>
  (scalar expected (Found.integer? expected 0 (UInt64.size - 1)) s).map fun (n, rest) =>
    (UInt64.ofNat n.toNat, rest)

def integer (expected : String) : Reader Int64 := fun s =>
  let limits := (Int64.minValue.toInt, Int64.maxValue.toInt)
  (scalar expected (Found.integer? expected limits.1 limits.2) s).map fun (n, rest) =>
    (Int64.ofInt n, rest)

def naturalOrNull (expected : String) : Reader (Option UInt64) :=
  scalar expected fun
    | .scalar .null => .ok none
    | found =>
      (Found.integer? expected 0 (UInt64.size - 1) found).map fun n => some (UInt64.ofNat n.toNat)

/-- Whether an object has a key, in front of whose opening quote the reader then stands.
An object without keys has no value to offer. -/
def onlyKey : Reader Unit := fun s =>
  let s := skipBlanks s
  match s with
  | [] => .error (faultAfter .endOfObject [])
  | b :: _ =>
    if b == 0x22 then .ok ((), s)
    else if b == 0x7D then .error (faultAt .expectedValue s)
    else .error (faultAt .keyNotText s)

/-- One of several names: as a text, or as the only key of an object, with null behind it. -/
def choice {α : Type} (names : List (String × α)) : Reader α := fun s => do
  let name := scalar "variant identifier" (Found.name? names)
  let s := skipBlanks s
  match s with
  | [] => .error (faultAfter .endOfValue [])
  | b :: rest =>
    if b == 0x22 then name s
    else if b == 0x7B then
      let ((), s) ← onlyKey rest
      let (a, s) ← name s
      let ((), s) ← colon s
      let ((), s) ← scalar "unit" (Found.null? "unit") s
      match skipBlanks s with
      | [] => .error (faultAfter .endOfObject [])
      | b :: rest =>
        if b == 0x7D then .ok (a, rest) else .error (faultAfter .expectedValue (b :: rest))
    else .error (faultAt .expectedValue s)

end Reader

end ChatHall.Json
