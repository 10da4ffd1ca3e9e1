/-
# Values

A JSON value as it is kept when its meaning depends on what follows. Nesting is
limited, so that a hostile text cannot exhaust the reader.
-/

import ChatHall.Json.Scalar

namespace ChatHall.Json

inductive Value
  | scalar (x : Scalar)
  | list (items : List Value)
  | object (entries : List (String × Value))
  deriving Repr

/-- The value as it is named in a complaint. -/
def Value.found : Value → Found
  | scalar x => .scalar x
  | list _ => .sequence
  | object _ => .map

namespace Reader

variable {α : Type}

/-- The elements of a list behind those `seen`, latest first, up to the closing bracket. -/
def items (element : Reader α) : (fuel : Nat) → (first : Bool) → (seen : List α) → Reader (List α)
  | 0, _, seen, s => .ok (seen.reverse, s)
  | fuel + 1, first, seen, s => do
    let (more, s) ← nextItem first s
    if more then
      let (a, s) ← element s
      items element fuel false (a :: seen) s
    else .ok (seen.reverse, s)

/-- The entries of an object behind those `seen`, latest first, up to the closing bracket. -/
def entries (element : Reader α) :
    (fuel : Nat) → (first : Bool) → (seen : List (String × α)) → Reader (List (String × α))
  | 0, _, seen, s => .ok (seen.reverse, s)
  | fuel + 1, first, seen, s => do
    let (more, s) ← nextKey first s
    if more then
      let (key, s) ← Text.read s
      let ((), s) ← colon s
      let (a, s) ← element s
      entries element fuel false ((key, a) :: seen) s
    else .ok (seen.reverse, s)

end Reader

open Reader

/-- A value in which at most `depth` brackets are open at a time. -/
def Value.read : (depth : Nat) → Reader Value
  | depth, s => do
    let (front, rest) ← front s
    match front with
    | .scalar x => .ok (.scalar x, rest)
    | .list =>
      match depth with
      | 0 => .error (faultAfter .tooDeep rest)
      | depth + 1 =>
        let (values, s) ← items (Value.read depth) (rest.length + 1) true [] rest
        .ok (.list values, s.drop 1)
    | .object =>
      match depth with
      | 0 => .error (faultAfter .tooDeep rest)
      | depth + 1 =>
        let (values, s) ← entries (Value.read depth) (rest.length + 1) true [] rest
        .ok (.object values, s.drop 1)

end ChatHall.Json
