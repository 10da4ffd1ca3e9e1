/-
# Reading printed objects

An object is printed entry by entry, and read entry by entry: behind the bracket or a
comma stands a key, behind its colon a value, and the value is over where the next
comma or the closing bracket stands. So what the entries do to a draft is said once,
`Record.Fills`, and holds of the whole object.
-/

import ChatHall.Json.Union
import ChatHall.Proofs.Json.Scalar

namespace ChatHall.Json

open Printer (bytes)
open Reader

variable {rest : Bytes}

/-! ## Entries -/

/-- The entries behind the first one, each behind its comma. -/
def Printer.later (entries : List (String × List Char)) : List Char :=
  entries.flatMap fun entry => ',' :: field entry.1 entry.2

theorem bytes_append (first second : List Char) :
    bytes (first ++ second) = bytes first ++ bytes second := List.flatMap_append ..

theorem fields_cons (name : String) (value : List Char) (entries : List (String × List Char)) :
    Printer.fields ((name, value) :: entries) =
      Printer.field name value ++ Printer.later entries := by
  induction entries generalizing name value with
  | nil => exact (List.append_nil _).symm
  | cons entry entries ih =>
      obtain ⟨name', value'⟩ := entry
      show Printer.field name value ++ ',' :: Printer.fields ((name', value') :: entries) = _
      rw [ih]
      rfl

theorem later_cons (name : String) (value : List Char) (entries : List (String × List Char)) :
    bytes (Printer.later ((name, value) :: entries)) ++ rest =
      0x2C :: (bytes (Printer.field name value) ++ (bytes (Printer.later entries) ++ rest)) := by
  rw [← List.append_assoc, ← bytes_append]
  rfl

/-- Behind the entries, or what is left of them, a value is over. -/
theorem ends_later (entries : List (String × List Char)) (rest : Bytes) :
    Ends (bytes (Printer.later entries) ++ 0x7D :: rest) := by
  cases entries with
  | nil => exact ends_brace rest
  | cons entry entries => exact ends_comma _

/-- A key is found behind the bracket and behind a comma, with its colon behind it. -/
theorem read_key (name : String) (value : List Char) (rest : Bytes) :
    ∃ inside, nextKey true (bytes (Printer.field name value) ++ rest) = .ok (true, inside) ∧
      nextKey false (0x2C :: (bytes (Printer.field name value) ++ rest)) = .ok (true, inside) ∧
      Text.read inside = .ok (name, 0x3A :: (bytes value ++ rest)) ∧
      colon (0x3A :: (bytes value ++ rest)) = .ok ((), bytes value ++ rest) := by
  have split : bytes (Printer.field name value) ++ rest =
      0x22 :: (bytes (name.toList.flatMap Printer.textChar) ++
        0x22 :: 0x3A :: (bytes value ++ rest)) := by
    have colon : bytes (':' :: value) = 0x3A :: bytes value := rfl
    rw [Printer.field, bytes_append, List.append_assoc, bytes_text, colon]
    rfl
  refine ⟨bytes (name.toList.flatMap Printer.textChar) ++ 0x22 :: 0x3A :: (bytes value ++ rest),
    ?_, ?_, Text.read_text _ name, rfl⟩
  · rw [split]
    rfl
  · rw [split]
    rfl

theorem length_le_fields (entries : List (String × List Char)) :
    entries.length ≤ (bytes (Printer.fields entries)).length := by
  have later (entries : List (String × List Char)) :
      entries.length ≤ (bytes (Printer.later entries)).length := by
    induction entries with
    | nil => exact Nat.le_refl 0
    | cons entry entries ih =>
        show _ ≤ (bytes (',' :: Printer.field entry.1 entry.2 ++ Printer.later entries)).length
        rw [bytes_append, List.length_append, List.length_cons, Nat.add_comm]
        exact Nat.add_le_add (Nat.succ_le_of_lt (Nat.zero_lt_succ _)) ih
  cases entries with
  | nil => exact Nat.zero_le _
  | cons entry entries =>
      rw [fields_cons, bytes_append, List.length_append, List.length_cons, Nat.add_comm]
      exact Nat.add_le_add (Nat.succ_le_of_lt (Nat.zero_lt_succ _)) (later entries)

/-- A printed object between its brackets. -/
theorem encode_object (entries : List (String × List Char)) :
    Text.Utf8.encode (Printer.object entries) =
      0x7B :: (bytes (Printer.fields entries) ++ [0x7D]) := by
  rw [Text.Utf8.encode, Printer.object, String.toList_ofList]
  show 0x7B :: bytes (Printer.fields entries ++ ['\x7d']) = _
  rw [bytes_append]
  rfl

theorem front_brace (s : Bytes) : front (0x7B :: s) = .ok (.object, s) := rfl

theorem closing_brace {α : Type} {inside : Except (Fault × Bytes) (α × Bytes)} {a : α}
    (read : inside = .ok (a, [0x7D])) : closing objectEnd inside = .ok (a, []) := by
  rw [read]
  rfl

/-! ## Records -/

namespace Record

variable {δ α : Type} {r : Record δ α} {draft after : δ} {entries : List (String × List Char)}

/-- What printed entries make of a draft: each goes into a field that the draft lacks. -/
inductive Fills (r : Record δ α) : δ → List (String × List Char) → δ → Prop
  | done (draft : δ) : Fills r draft [] draft
  | entry {draft next after : δ} {field : Field δ} {name : String} {printed : List Char}
      {entries : List (String × List Char)}
      (known : (r.fields.find? fun f => f.name = name) = some field)
      (absent : field.present draft = false)
      (reads : (field.read draft).Reads printed next)
      (later : Fills r next entries after) : Fills r draft ((name, printed) :: entries) after

theorem placed_ok {β : Type} (b : β) : placed (.ok b) = .ok b := rfl

/-- One entry, with the bracket or a comma in front of it. -/
theorem readObject_entry {fuel : Nat} {first : Bool} {s inside behind : Bytes} {next : δ}
    {field : Field δ} {name : String} {value : Bytes}
    (found : nextKey first s = .ok (true, inside)) (key : Text.read inside = .ok (name, behind))
    (colon : Reader.colon behind = .ok ((), value))
    (known : (r.fields.find? fun f => f.name = name) = some field)
    (absent : field.present draft = false) (read : field.read draft value = .ok (next, rest)) :
    r.readObject (fuel + 1) first draft s = r.readObject fuel false next rest := by
  simp only [readObject, found, key, colon, known, absent, read, placed_ok, bind, Except.bind,
    if_true, Bool.false_eq_true, if_false]

theorem readObject_brace (fuel : Nat) (first : Bool) (draft : δ) :
    r.readObject (fuel + 1) first draft (0x7D :: rest) = .ok (draft, 0x7D :: rest) := by
  cases first <;> rfl

theorem Fills.readObject_later (fills : Fills r draft entries after) {fuel : Nat}
    (enough : entries.length < fuel) :
    r.readObject fuel false draft (bytes (Printer.later entries) ++ 0x7D :: rest) =
      .ok (after, 0x7D :: rest) := by
  induction fills generalizing fuel with
  | done draft =>
      obtain ⟨fuel, rfl⟩ := Nat.exists_eq_succ_of_ne_zero (Nat.ne_of_gt enough)
      exact readObject_brace fuel false draft
  | @entry draft next after field name printed entries known absent reads later ih =>
      obtain ⟨fuel, rfl⟩ := Nat.exists_eq_succ_of_ne_zero (Nat.ne_of_gt (Nat.zero_lt_of_lt enough))
      obtain ⟨inside, -, found, key, colon⟩ :=
        read_key name printed (bytes (Printer.later entries) ++ 0x7D :: rest)
      rw [later_cons, readObject_entry found key colon known absent (reads _ (ends_later entries rest))]
      exact ih (Nat.lt_of_succ_lt_succ enough)

/-- All entries of an object. -/
theorem Fills.readObject (fills : Fills r draft entries after) {fuel : Nat}
    (enough : entries.length < fuel) :
    r.readObject fuel true draft (bytes (Printer.fields entries) ++ 0x7D :: rest) =
      .ok (after, 0x7D :: rest) := by
  obtain ⟨fuel, rfl⟩ := Nat.exists_eq_succ_of_ne_zero (Nat.ne_of_gt (Nat.zero_lt_of_lt enough))
  cases fills with
  | done draft => exact readObject_brace fuel true draft
  | @entry draft next after field name printed entries known absent reads later =>
      obtain ⟨inside, found, -, key, colon⟩ :=
        read_key name printed (bytes (Printer.later entries) ++ 0x7D :: rest)
      rw [fields_cons, bytes_append, List.append_assoc,
        readObject_entry found key colon known absent (reads _ (ends_later entries rest))]
      exact later.readObject_later (Nat.lt_of_succ_lt_succ enough)

/-- An object is the record that its entries build. -/
theorem Fills.decode (fills : Fills r r.blank entries after) {a : α}
    (built : r.build after = .ok a) :
    r.decode (Text.Utf8.encode (Printer.object entries)) = .ok a := by
  have enough : entries.length < (bytes (Printer.fields entries) ++ [0x7D]).length + 1 := by
    have small := length_le_fields entries
    rw [List.length_append]
    omega
  have inside : r.readObject _ true r.blank (bytes (Printer.fields entries) ++ [0x7D]) =
      .ok (after, [0x7D]) := fills.readObject enough
  have complete : r.complete (after, [0x7D]) = .ok (a, [0x7D]) := by
    simp only [Record.complete, built]
  have read := closing_brace (show r.complete (after, [0x7D]) = _ from complete)
  simp only [Record.decode, Record.read, encode_object, front_brace, inside, bind, Except.bind,
    read]
  rfl

end Record

/-! ## Unions -/

namespace Union

variable {δ α : Type} {u : Union δ α} {entries : List (String × List Char)}
  {content : List (String × Value)}

/-- What is kept of printed entries beside the tag. -/
inductive Keeps (u : Union δ α) : List (String × List Char) → List (String × Value) → Prop
  | done : Keeps u [] []
  | entry {name : String} {printed : List Char} {x : Scalar}
      {entries : List (String × List Char)} {content : List (String × Value)}
      (other : name ≠ u.tag) (prints : Prints printed x) (later : Keeps u entries content) :
      Keeps u ((name, printed) :: entries) ((name, .scalar x) :: content)

variable {tag : Option (Variant δ α)}

theorem Keeps.readObject_later (keeps : Keeps u entries content) {fuel : Nat}
    (enough : entries.length < fuel) (seen : List (String × Value)) :
    u.readObject fuel false tag seen (bytes (Printer.later entries) ++ 0x7D :: rest) =
      .ok ((tag, seen.reverse ++ content), 0x7D :: rest) := by
  induction keeps generalizing fuel seen with
  | done =>
      obtain ⟨fuel, rfl⟩ := Nat.exists_eq_succ_of_ne_zero (Nat.ne_of_gt enough)
      rw [List.append_nil]
      rfl
  | @entry name printed x entries content other prints later ih =>
      obtain ⟨fuel, rfl⟩ := Nat.exists_eq_succ_of_ne_zero (Nat.ne_of_gt (Nat.zero_lt_of_lt enough))
      obtain ⟨inside, -, found, key, colon⟩ :=
        read_key name printed (bytes (Printer.later entries) ++ 0x7D :: rest)
      have value := prints.value depth _ (ends_later entries rest)
      rw [later_cons, Union.readObject]
      simp only [found, key, colon, value, Record.placed_ok, bind, Except.bind, if_true, if_neg other]
      rw [ih (Nat.lt_of_succ_lt_succ enough), List.reverse_cons, List.append_assoc]
      rfl

/-- A tag in front of printed entries. -/
theorem Keeps.readObject (keeps : Keeps u entries content) {name : String} {v : Variant δ α}
    (known : (u.variants.map fun v => (v.name, v)).lookup name = some v) {fuel : Nat}
    (enough : entries.length + 1 < fuel) :
    u.readObject fuel true none []
        (bytes (Printer.fields ((u.tag, Printer.text name) :: entries)) ++ 0x7D :: rest) =
      .ok ((some v, content), 0x7D :: rest) := by
  obtain ⟨fuel, rfl⟩ := Nat.exists_eq_succ_of_ne_zero (Nat.ne_of_gt (Nat.zero_lt_of_lt enough))
  obtain ⟨inside, found, -, key, colon⟩ :=
    read_key u.tag (Printer.text name) (bytes (Printer.later entries) ++ 0x7D :: rest)
  have picks : Found.name? (u.variants.map fun v => (v.name, v)) (.scalar (.text name)) = .ok v :=
    Found.name?_of_lookup known
  have tag := (prints_text name).scalar "variant identifier" picks _
    (ends_later entries rest)
  rw [fields_cons, bytes_append, List.append_assoc, Union.readObject]
  simp only [found, key, colon, readTag, tag, Record.placed_ok, bind, Except.bind, if_true,
    Option.isSome_none, Bool.false_eq_true, if_false]
  exact keeps.readObject_later (Nat.lt_of_succ_lt_succ enough) []

/-- An object whose first entry is the tag is what its variant makes of the others. -/
theorem Keeps.decode (keeps : Keeps u entries content) {name : String} {v : Variant δ α} {a : α}
    (known : (u.variants.map fun v => (v.name, v)).lookup name = some v)
    (made : v.ofContent u.title u.blank (.object content) = .ok a) :
    u.decode (Text.Utf8.encode (Printer.object ((u.tag, Printer.text name) :: entries))) =
      .ok a := by
  let printed := bytes (Printer.fields ((u.tag, Printer.text name) :: entries))
  have written : Text.Utf8.encode (Printer.object ((u.tag, Printer.text name) :: entries)) =
      0x7B :: (printed ++ [0x7D]) := encode_object _
  have enough : entries.length + 1 < (printed ++ [0x7D]).length + 1 := by
    have small := length_le_fields ((u.tag, Printer.text name) :: entries)
    rw [List.length_append]
    exact Nat.lt_succ_of_le (Nat.le_succ_of_le small)
  have inside : u.readObject _ true none [] (printed ++ [0x7D]) =
      .ok ((some v, content), [0x7D]) := keeps.readObject known enough
  have parts : u.objectParts (printed ++ [0x7D]) = .ok ((v, .object content), [0x7D]) := by
    simp only [objectParts, inside, bind, Except.bind]
  simp only [Union.decode, Union.read, written, front_brace, closing_brace parts, made, bind,
    Except.bind]
  rfl

end Union

end ChatHall.Json
