/-
# What complaints weigh

How many bytes a complaint takes when it is printed between quotes, by what it names.
A text is named with all its characters, and each of them may be escaped in the
complaint and once more when that is printed; everything else is named in few bytes.
-/

import ChatHall.Proofs.Json.Blame

namespace ChatHall.Json

open ChatHall.Text

theorem weight_toString_int_le (digits : Nat) {k : Int} (positive : 0 < digits)
    (below : k.natAbs < 10 ^ digits) : weight (toString k) ≤ digits + 1 := by
  cases k with
  | ofNat m => exact Nat.le_succ_of_le (weight_toString_le digits positive below)
  | negSucc m =>
      have shown : toString (Int.negSucc m) = "-" ++ toString (m + 1) := rfl
      have sign : weight "-" = 1 := rfl
      rw [shown, weight_append, sign, Nat.add_comm]
      exact Nat.add_le_add_right (weight_toString_le digits positive below) 1

/-- Whatever is no text is named in few bytes. -/
theorem Found.FitsIn.weight_message_le {found : Found} {n : Nat} (fits : found.FitsIn n)
    (other : ∀ t, found ≠ .scalar (.text t)) : weight found.message ≤ 60 := by
  cases found with
  | scalar x =>
      cases x with
      | null => decide
      | boolean b => cases b <;> decide
      | integer k =>
          have shown : Found.message (.scalar (.integer k)) = "integer `" ++ toString k ++ "`" := rfl
          have digits := weight_toString_int_le 20 (by decide) fits
          have opening : weight "integer `" = 9 := by decide
          have closing : weight "`" = 1 := by decide
          rw [shown, weight_append, weight_append, opening, closing]
          omega
      | floating bits =>
          have shown : Found.message (.scalar (.floating bits)) =
              "floating point `" ++ Decimal.floatText bits ++ "`" := rfl
          have digits := weight_floatText_le bits
          have opening : weight "floating point `" = 16 := by decide
          have closing : weight "`" = 1 := by decide
          rw [shown, weight_append, weight_append, opening, closing]
          omega
      | text t => exact absurd rfl (other t)
  | sequence => decide
  | map => decide

/-- A text that stands in at most `n` bytes is quoted in at most seven times as many. -/
theorem Found.weight_message_text_le {t : String} {n : Nat} (fits : weight t + 2 ≤ n) :
    weight (Found.message (.scalar (.text t))) ≤ 7 * n := by
  have shown : Found.message (.scalar (.text t)) = "string " ++ quoted t := rfl
  have opening : weight "string " = 7 := by decide
  have inside := weight_quoted_le t
  have short := length_encode_le_weight t
  rw [shown, weight_append, opening]
  omega

theorem Cause.weight_wrongType (found : Found) (expected : String) :
    weight (Cause.message (.wrongType found expected)) =
      weight found.message + weight expected + 25 := by
  have shown : Cause.message (.wrongType found expected) =
      "invalid type: " ++ found.message ++ ", expected " ++ expected := rfl
  have opening : weight "invalid type: " = 14 := by decide
  have middle : weight ", expected " = 11 := by decide
  rw [shown, weight_append, weight_append, weight_append, opening, middle]
  omega

theorem Cause.weight_wrongLength_le {count : Nat} (few : count < 10 ^ 20) (expected : String) :
    weight (Cause.message (.wrongLength count expected)) ≤ weight expected + 46 := by
  have shown : Cause.message (.wrongLength count expected) =
      "invalid length " ++ toString count ++ ", expected " ++ expected := rfl
  have digits := weight_toString_le 20 (by decide) few
  have opening : weight "invalid length " = 15 := by decide
  have middle : weight ", expected " = 11 := by decide
  rw [shown, weight_append, weight_append, weight_append, opening, middle]
  omega

theorem Cause.weight_missingField (name : String) :
    weight (Cause.message (.missingField name)) = weight name + 16 := by
  have shown : Cause.message (.missingField name) = "missing field `" ++ name ++ "`" := rfl
  have opening : weight "missing field `" = 15 := by decide
  have closing : weight "`" = 1 := by decide
  rw [shown, weight_append, weight_append, opening, closing]
  omega

theorem Cause.weight_duplicateField (name : String) :
    weight (Cause.message (.duplicateField name)) = weight name + 18 := by
  have shown : Cause.message (.duplicateField name) = "duplicate field `" ++ name ++ "`" := rfl
  have opening : weight "duplicate field `" = 17 := by decide
  have closing : weight "`" = 1 := by decide
  rw [shown, weight_append, weight_append, opening, closing]
  omega

/-- A place is told in few bytes, as long as the input is not longer than a frame. -/
theorem Fault.weight_message_le {input : Bytes} (short : input.length < 9999) (f : Fault) :
    weight (f.message input) ≤ weight f.cause.message + 25 := by
  rw [Fault.message]
  split
  · exact Nat.le_add_right _ _
  · next left _ =>
      have consumed : (input.take (input.length - left)).length ≤ input.length :=
        List.length_take_le' ..
      have line : (lineAndColumn (input.take (input.length - left))).1 < 10 ^ 4 := by
        have newlines := List.count_le_length (a := 0x0A) (l := input.take (input.length - left))
        rw [lineAndColumn]
        omega
      have column : (lineAndColumn (input.take (input.length - left))).2 < 10 ^ 4 := by
        rw [lineAndColumn]
        have behind := (List.takeWhile_sublist (l := (input.take (input.length - left)).reverse)
          (· ≠ 0x0A)).length_le
        rw [List.length_reverse] at behind
        omega
      have lineDigits := weight_toString_le 4 (by decide) line
      have columnDigits := weight_toString_le 4 (by decide) column
      have atLine : weight " at line " = 9 := by decide
      have atColumn : weight " column " = 8 := by decide
      simp only [weight_append, weight_toString, atLine, atColumn]
      omega

end ChatHall.Json
