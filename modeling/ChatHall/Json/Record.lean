/-
# Records

Decoding a JSON object with known fields, or a JSON list of the fields in order.
Fields are read into a draft as they come; unknown ones are skipped, and what is
still missing is named once the object has been read.
-/

import ChatHall.Json.Scalar
import ChatHall.Json.Skip

namespace ChatHall.Json

structure Field (δ : Type) where
  name : String
  /-- Whether the draft has the field already. -/
  present : δ → Bool
  /-- Reads the value of the field into the draft. -/
  read : δ → Reader δ

/-- A record with drafts of type `δ` and values of type `α`. -/
structure Record (δ α : Type) where
  /-- The name of the record in messages. -/
  title : String
  fields : List (Field δ)
  blank : δ
  /-- The value of a draft, or the name of the first field that it lacks. -/
  build : δ → Except String α

/-- A count of elements in words. -/
def elementCount (n : Nat) : String := if n = 1 then "1 element" else s!"{n} elements"

namespace Record

open Reader

variable {δ α : Type} (r : Record δ α)

/-- How the record is named where something else was found. -/
def expected : String := s!"struct {r.title}"

/-- A fault that has a place, in a step whose faults come with the rest they leave. -/
def placed {β : Type} (e : Except Fault β) : Except (Fault × Bytes) β :=
  e.mapError fun f => (f, [])

/-- The fields of an object, up to its closing bracket. -/
def readObject : (fuel : Nat) → (first : Bool) → δ → Bytes → Except (Fault × Bytes) (δ × Bytes)
  | 0, _, draft, s => .ok (draft, s)
  | fuel + 1, first, draft, s => do
    let (more, s) ← placed (nextKey first s)
    if more then
      let (key, s) ← placed (Text.read s)
      match r.fields.find? fun f => f.name = key with
      | none =>
        let ((), s) ← placed (colon s)
        let s ← placed (Skip.value s)
        readObject fuel false draft s
      | some field =>
        if field.present draft then .error (unplaced (.duplicateField key), s)
        else
          let ((), s) ← placed (colon s)
          let (draft, s) ← placed (field.read draft s)
          readObject fuel false draft s
    else .ok (draft, s)

/-- The given fields of a list, of which `done` have been read. -/
def readList (total : Nat) :
    List (Field δ) → (done : Nat) → δ → Bytes → Except (Fault × Bytes) (δ × Bytes)
  | [], _, draft, s => .ok (draft, s)
  | field :: fields, done, draft, s => do
    let (more, s) ← placed (nextItem (done = 0) s)
    if more then
      let (draft, s) ← placed (field.read draft s)
      readList total fields (done + 1) draft s
    else
      .error (unplaced (.wrongLength done s!"{r.expected} with {elementCount total}"), s)

def complete (read : δ × Bytes) : Except (Fault × Bytes) (α × Bytes) :=
  match r.build read.1 with
  | .ok a => .ok (a, read.2)
  | .error name => .error (unplaced (.missingField name), read.2)

def read : Reader α := fun s => do
  let (front, rest) ← front s
  match front with
  | .scalar _ => .error (wrongFront r.expected front rest)
  | .object =>
    closing objectEnd (do r.complete (← r.readObject (rest.length + 1) true r.blank rest))
  | .list =>
    closing listEnd (do r.complete (← r.readList r.fields.length r.fields 0 r.blank rest))

def decode (input : Bytes) : Except Fault α := do finished (← r.read input)

end Record

end ChatHall.Json
