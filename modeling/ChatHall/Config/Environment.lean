/-
# The process environment

Variables by name. A value that is no text counts as missing for whoever asks
for a text. A value with a NUL character cannot be set.
-/

import ChatHall.Panic
import ChatHall.Table
import ChatHall.Text.Quoted
import ChatHall.Text.Utf8

namespace ChatHall.Config

/-- The value of a variable: a text, or bytes that are none. -/
inductive Variable
  | text (s : String)
  | raw (bytes : Bytes)
  deriving Repr, DecidableEq

def Variable.ofBytes (bytes : Bytes) : Variable :=
  match Text.Utf8.decode bytes with
  | .ok s => text s
  | .error _ => raw bytes

/-- The variables of a process. -/
structure Environment where
  values : Table String Variable := {}
  deriving Repr, DecidableEq

namespace Environment

/-- The text of a variable. -/
def get? (e : Environment) (name : String) : Option String :=
  match e.values.find? name with
  | some (.text s) => some s
  | _ => none

/-- What stands behind a label and an equals sign at the front of an entry. Entries are written
as a name, an equals sign and a value, so a label that holds an equals sign itself reaches
into the value. An empty label finds nothing, and neither does one with a NUL character. -/
def behind? (e : Environment) (label : String) : Option String :=
  if label.isEmpty || '\x00' ∈ label.toList then none
  else
    let name := String.ofList (label.toList.takeWhile (· ≠ '='))
    match label.toList.dropWhile (· ≠ '=') with
    | [] => e.get? name
    | _ :: start => do
      let value ← e.get? name
      let rest ← (start ++ ['=']).isPrefixOf? value.toList
      some (String.ofList rest)

/-- What the setting of a value with a NUL character panics with. -/
def refusal (name value : String) : Panic :=
  .ofText (s!"failed to set environment variable `{Text.quoted name}` to " ++
    s!"`{Text.quoted value}`: file name contained an unexpected NUL byte")

/-- The environment with one variable set. The entries of an environment end at NUL characters,
so that no value can hold one. -/
def set (e : Environment) (name value : String) : Except Panic Environment :=
  if '\x00' ∈ value.toList then .error (refusal name value)
  else .ok ⟨e.values.insert name (.text value)⟩

/-- The environment with a variable set unless it has a text already. -/
def setDefault (e : Environment) (name value : String) : Except Panic Environment :=
  if (e.get? name).isSome then .ok e else e.set name value

def texts (e : Environment) : List (String × String) :=
  e.values.entries.filterMap fun (name, v) =>
    match v with
    | .text s => some (name, s)
    | .raw _ => none

/-- The entry that a piece of an environment block writes: a name, an equals sign and a
value. A name that is no text, or none at all, makes no entry. -/
def entry? (piece : Bytes) : Option (String × Variable) :=
  let isEquals (b : UInt8) : Bool := b = '='.toNat.toUInt8
  let name := piece.takeWhile fun b => !isEquals b
  match piece.dropWhile (fun b => !isEquals b), (Text.Utf8.decode name).toOption with
  | _ :: value, some name => some (name, .ofBytes value)
  | _, _ => none

/-- The environment that a block of entries writes, each of which ends in a zero byte. The
first entry of a name counts. -/
def ofBlock (block : Bytes) : Environment :=
  let entries := (block.splitOn 0).filterMap entry?
  ⟨entries.foldr (fun (name, value) values => values.insert name value) {}⟩

theorem get?_of_set {e after : Environment} {name value : String}
    (set : e.set name value = .ok after) (other : String) :
    after.get? other = if other = name then some value else e.get? other := by
  rw [Environment.set] at set
  split at set
  · contradiction
  · obtain rfl := Except.ok.inj set
    by_cases h : other = name <;> simp [get?, Table.find?_insert, h]

/-- A text that is there stays. -/
theorem get?_of_setDefault {e after : Environment} {name value : String}
    (set : e.setDefault name value = .ok after) (other : String) :
    after.get? other = if other = name then some ((e.get? name).getD value) else e.get? other := by
  rw [setDefault] at set
  split at set
  · next known =>
      obtain rfl := Except.ok.inj set
      obtain ⟨s, found⟩ := Option.isSome_iff_exists.1 known
      by_cases same : other = name <;> simp [found, same]
  · next unknown =>
      rw [get?_of_set set, Option.not_isSome_iff_eq_none.1 unknown]
      rfl

/-- What cannot be set is a value with a NUL character, for a name that has no text. -/
theorem setDefault_eq_error_iff {e : Environment} {name value : String} {p : Panic} :
    e.setDefault name value = .error p ↔
      e.get? name = none ∧ '\x00' ∈ value.toList ∧ p = refusal name value := by
  rw [setDefault, set]
  split
  · next known =>
      refine ⟨fun same => (nomatch same), fun barred => ?_⟩
      rw [barred.1] at known
      contradiction
  · next unknown =>
      rw [and_iff_right (Option.not_isSome_iff_eq_none.1 unknown)]
      split
      · next nul => rw [and_iff_right nul, Except.error.injEq, eq_comm]
      · next plain => exact ⟨fun same => (nomatch same), fun barred => absurd barred.1 plain⟩

end Environment

end ChatHall.Config
