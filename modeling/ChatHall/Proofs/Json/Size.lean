/-
# How long printed JSON is

A character between quotes takes at most six bytes: the control characters are the ones
that are written as numbers, and no other character has more than four. What is printed
around the values of an object is known beforehand, so the length of an object is
bounded by what its values are.
-/

import ChatHall.Proofs.Json.Number
import ChatHall.Proofs.Json.Object
import Mathlib.Data.Nat.Digits.Defs

namespace ChatHall

theorem Text.Utf8.length_encodeChar_le (c : Char) : (encodeChar c).length ≤ 4 := by
  rw [encodeChar]
  split_ifs <;> simp

namespace Json

open Printer (bytes)

/-! ## Texts -/

/-- A character is escaped in at most six bytes, or left as it is. -/
theorem length_textChar_le (c : Char) : (bytes (Printer.textChar c)).length ≤ 6 := by
  have single (d : Char) : (bytes [d]).length ≤ 6 := by
    rw [bytes, List.flatMap_singleton]
    exact Nat.le_trans (Text.Utf8.length_encodeChar_le d) (by decide)
  rw [Printer.textChar]
  split_ifs with quote backslash backspace formFeed newline return_ tab control
  iterate 7 decide
  · obtain ⟨high, low, highDigit, lowDigit, -⟩ := Text.hexValue?_control control
    simp only [bytes, List.flatMap_cons, List.flatMap_nil, highDigit, lowDigit]
    exact Nat.le_refl 6
  · exact single c

theorem length_text_le (s : String) : (bytes (Printer.text s)).length ≤ 6 * s.length + 2 := by
  have inside (cs : List Char) :
      (bytes (cs.flatMap Printer.textChar)).length ≤ 6 * cs.length := by
    induction cs with
    | nil => exact Nat.le_refl 0
    | cons c cs ih =>
        have first := length_textChar_le c
        rw [List.flatMap_cons, bytes_append, List.length_append, List.length_cons]
        omega
  have whole := congrArg List.length (bytes_text s [])
  have chars := inside s.toList
  rw [List.append_nil, List.length_cons, List.length_append, List.length_singleton] at whole
  rw [String.length_toList] at chars
  omega

/-! ## Numbers -/

/-- A number takes a byte a digit. -/
theorem length_natural_le {n digits : Nat} (positive : 0 < digits) (below : n < 10 ^ digits) :
    (bytes (Printer.natural n)).length ≤ digits := by
  rw [Literal.bytes_digits (Literal.isDigit_natural n), List.length_map]
  exact Nat.toDigits_length 10 n digits positive below

/-- The sign of a number takes one byte more. -/
theorem length_integer_le {n : Int} {digits : Nat} (positive : 0 < digits)
    (below : n.natAbs < 10 ^ digits) : (bytes (Printer.integer n)).length ≤ digits + 1 := by
  have unsigned := length_natural_le positive below
  rw [Printer.integer]
  split
  · show (bytes (['-'] ++ Printer.natural n.natAbs)).length ≤ _
    rw [bytes_append, List.length_append, Nat.add_comm]
    exact Nat.add_le_add_right unsigned 1
  · exact Nat.le_succ_of_le unsigned

/-! ## Objects -/

theorem length_field (name : String) (value : List Char) :
    (bytes (Printer.field name value)).length =
      (bytes (Printer.text name)).length + 1 + (bytes value).length := by
  show (bytes (Printer.text name ++ ([':'] ++ value))).length = _
  rw [bytes_append, bytes_append, List.length_append, List.length_append, Nat.add_assoc]
  rfl

/-- Behind every entry stands a comma or the closing bracket. -/
theorem length_object (name : String) (value : List Char) (entries : List (String × List Char)) :
    (Text.Utf8.encode (Printer.object ((name, value) :: entries))).length =
      1 + (((name, value) :: entries).map fun entry =>
        (bytes (Printer.field entry.1 entry.2)).length + 1).sum := by
  have later (entries : List (String × List Char)) : (bytes (Printer.later entries)).length =
      (entries.map fun entry => (bytes (Printer.field entry.1 entry.2)).length + 1).sum := by
    induction entries with
    | nil => rfl
    | cons entry entries ih =>
        show (bytes ([','] ++ Printer.field entry.1 entry.2 ++ Printer.later entries)).length = _
        rw [bytes_append, bytes_append, List.length_append, List.length_append, ih, List.map_cons,
          List.sum_cons, Nat.add_comm _ 1]
        rfl
  rw [encode_object, fields_cons, bytes_append, List.length_cons, List.length_append,
    List.length_append, later, List.length_singleton, List.map_cons, List.sum_cons]
  dsimp only
  omega

end Json

end ChatHall
