/-
# Tagged unions

Decoding one of several records, told apart by a tag: an object with the tag
under a key of its own, anywhere, or a list that starts with the tag. The tag may
come last, so the other values are kept until the whole text has been read, and
what is wrong with them has no place in the text.
-/

import ChatHall.Json.Record
import ChatHall.Json.Value

namespace ChatHall.Json

structure Slot (δ : Type) where
  name : String
  /-- Whether the draft has the field already. -/
  present : δ → Bool
  /-- Takes a value into the draft. -/
  take : δ → Found → Except Cause δ

structure Variant (δ α : Type) where
  name : String
  slots : List (Slot δ)
  /-- The value of a draft, or the name of the first field that it lacks. -/
  build : δ → Except String α

structure Union (δ α : Type) where
  /-- The name of the union in messages. -/
  title : String
  /-- The key of the tag. -/
  tag : String
  blank : δ
  variants : List (Variant δ α)

/-- The values beside the tag. -/
inductive Content
  | list (values : List Value)
  | object (entries : List (String × Value))
  deriving Repr

namespace Variant

variable {δ α : Type} (v : Variant δ α)

def complete (draft : δ) : Except Cause α :=
  match v.build draft with
  | .ok a => .ok a
  | .error name => .error (.missingField name)

/-- Takes named values into a draft; those without a field are ignored. -/
def takeEntries : List (String × Value) → δ → Except Cause δ
  | [], draft => .ok draft
  | (key, value) :: later, draft =>
    match v.slots.find? fun slot => slot.name = key with
    | none => takeEntries later draft
    | some slot => do
      if slot.present draft then .error (.duplicateField key)
      else takeEntries later (← slot.take draft value.found)

/-- Takes values into the fields in order; `done` fields have theirs. -/
def takeValues (title : String) : List (Slot δ) → (done : Nat) → List Value → δ → Except Cause δ
  | [], done, values, draft =>
    if values.isEmpty then .ok draft
    else .error (.wrongLength (done + values.length) s!"{elementCount done} in sequence")
  | _ :: _, done, [], _ =>
    .error (.wrongLength done
      s!"struct variant {title}::{v.name} with {elementCount v.slots.length}")
  | slot :: slots, done, value :: values, draft => do
    takeValues title slots (done + 1) values (← slot.take draft value.found)

/-- The variant's value with this content, in the union called `title`. -/
def ofContent (title : String) (blank : δ) : Content → Except Cause α
  | .object entries => do v.complete (← v.takeEntries entries blank)
  | .list values => do v.complete (← v.takeValues title v.slots 0 values blank)

end Variant

namespace Union

open Reader Record

variable {δ α : Type} (u : Union δ α)

def expected : String := s!"internally tagged enum {u.title}"

/-- How many brackets may be open inside a union's own. -/
def depth : Nat := 126

def readTag : Reader (Variant δ α) :=
  scalar "variant identifier" (Found.name? (u.variants.map fun v => (v.name, v)))

def readObject : (fuel : Nat) → (first : Bool) → Option (Variant δ α) →
    (seen : List (String × Value)) → Bytes →
    Except (Fault × Bytes) ((Option (Variant δ α) × List (String × Value)) × Bytes)
  | 0, _, tag, seen, s => .ok ((tag, seen.reverse), s)
  | fuel + 1, first, tag, seen, s => do
    let (more, s) ← placed (nextKey first s)
    if more then
      let (key, s) ← placed (Text.read s)
      if key = u.tag then
        if tag.isSome then .error (unplaced (.duplicateField u.tag), s)
        else
          let ((), s) ← placed (colon s)
          let (variant, s) ← placed (u.readTag s)
          readObject fuel false (some variant) seen s
      else
        let ((), s) ← placed (colon s)
        let (value, s) ← placed (Value.read depth s)
        readObject fuel false tag ((key, value) :: seen) s
    else .ok ((tag, seen.reverse), s)

def objectParts (s : Bytes) : Except (Fault × Bytes) ((Variant δ α × Content) × Bytes) := do
  match ← u.readObject (s.length + 1) true none [] s with
  | ((some variant, entries), s) => .ok ((variant, .object entries), s)
  | ((none, _), s) => .error (unplaced (.missingField u.tag), s)

def listParts (s : Bytes) : Except (Fault × Bytes) ((Variant δ α × Content) × Bytes) := do
  let (more, s) ← placed (nextItem true s)
  if more then
    let (variant, s) ← placed (u.readTag s)
    let (values, s) ← placed (items (Value.read depth) (s.length + 1) false [] s)
    .ok ((variant, .list values), s)
  else .error (unplaced (.missingField u.tag), s)

def read : Reader α := fun s => do
  let (front, rest) ← front s
  let ((variant, content), rest) ←
    match front with
    | .scalar _ => .error (wrongFront u.expected front rest)
    | .object => closing objectEnd (u.objectParts rest)
    | .list => closing listEnd (u.listParts rest)
  match variant.ofContent u.title u.blank content with
  | .ok a => .ok (a, rest)
  | .error cause => .error (unplaced cause)

def decode (input : Bytes) : Except Fault α := do finished (← u.read input)

end Union

end ChatHall.Json
