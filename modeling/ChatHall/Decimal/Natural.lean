/-
# Numbers in settings

Natural numbers as they are written in settings: an optional plus sign and one
or more ASCII digits, within the range of the setting.
-/

namespace ChatHall.Decimal

/-- The digits of a text as a number, after the digits that make `value`. -/
def digitsFrom (value : Nat) : List Char → Option Nat
  | [] => some value
  | c :: s => if c.isDigit then digitsFrom (value * 10 + (c.toNat - '0'.toNat)) s else none

/-- One or more digits as a number. -/
def digits? : List Char → Option Nat
  | [] => none
  | s => digitsFrom 0 s

/-- A number of at most `limit`, with or without a plus sign. -/
def natural? (limit : Nat) (text : String) : Option Nat :=
  let digits :=
    match text.toList with
    | '+' :: s => s
    | s => s
  (digits? digits).filter (· ≤ limit)

end ChatHall.Decimal
