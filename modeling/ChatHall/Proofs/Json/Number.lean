/-
# Reading printed numbers

A number is printed by its decimal digits, without a leading zero, and read digit by
digit. As long as 64 bits hold it, no digit is dropped on the way, and it comes back
as an integer and not as a float. A negative number comes back if it is one of 64
bits with a sign.
-/

import ChatHall.Json.Number
import ChatHall.Proofs.Json.Text

namespace ChatHall.Json

open ChatHall.Text
open Printer (bytes)

/-- Whether a number is over in front of these bytes. -/
def Ends (rest : Bytes) : Prop :=
  ∀ b ∈ rest.head?, Literal.isDigit b = false ∧ b ≠ 0x2E ∧ b ≠ 0x65 ∧ b ≠ 0x45

theorem ends_comma (rest : Bytes) : Ends (0x2C :: rest) := by
  intro b head
  obtain rfl := Option.some.inj head
  decide

theorem ends_brace (rest : Bytes) : Ends (0x7D :: rest) := by
  intro b head
  obtain rfl := Option.some.inj head
  decide

namespace Literal

def values (digits : List Char) : List Nat := digits.map fun c => c.toNat - '0'.toNat

variable {cs : List Char} {rest : Bytes}

/-! ## Digits -/

theorem digit?_byte {c : Char} (isDigit : c.isDigit = true) :
    Utf8.encodeChar c = [UInt8.ofNat c.toNat] ∧
      digit? (UInt8.ofNat c.toNat) = some (c.toNat - '0'.toNat) := by
  obtain ⟨low, high⟩ : 48 ≤ c.toNat ∧ c.toNat ≤ 57 := by
    simpa [Char.isDigit, UInt32.le_iff_toNat_le] using isDigit
  have value := Utf8.toNat_byte (show c.toNat < 256 by omega)
  constructor
  · simp only [Utf8.encodeChar]
    rw [if_pos (by omega)]
  · have within : (decide (0x30 ≤ UInt8.ofNat c.toNat) && decide (UInt8.ofNat c.toNat ≤ 0x39)) =
        true := (Utf8.within_iff ..).2 (value.symm ▸ ⟨low, high⟩)
    rw [digit?, if_pos within, value]
    rfl

theorem bytes_digits (digits : ∀ c ∈ cs, c.isDigit = true) :
    bytes cs = cs.map fun c => UInt8.ofNat c.toNat := by
  induction cs with
  | nil => rfl
  | cons c cs ih =>
      have first := (digit?_byte (digits c List.mem_cons_self)).1
      have later := ih fun d mem => digits d (List.mem_cons_of_mem c mem)
      rw [bytes] at later ⊢
      rw [List.flatMap_cons, first, later]
      rfl

theorem filterMap_digit? (digits : ∀ c ∈ cs, c.isDigit = true) :
    (cs.map fun c => UInt8.ofNat c.toNat).filterMap digit? = values cs := by
  induction cs with
  | nil => rfl
  | cons c cs ih =>
      have first := (digit?_byte (digits c List.mem_cons_self)).2
      have later := ih fun d mem => digits d (List.mem_cons_of_mem c mem)
      rw [List.map_cons, List.filterMap_cons_some first, later]
      rfl

/-- All digits at the front are taken. -/
theorem digits_append (isDigit : ∀ c ∈ cs, c.isDigit = true) (ends : Ends rest) :
    digits (bytes cs ++ rest) = (values cs, rest) := by
  have all : ∀ b ∈ cs.map (fun c => UInt8.ofNat c.toNat), Literal.isDigit b = true := by
    intro b mem
    obtain ⟨c, inside, rfl⟩ := List.mem_map.1 mem
    rw [Literal.isDigit, (digit?_byte (isDigit c inside)).2]
    rfl
  have stopped : rest.takeWhile Literal.isDigit = [] ∧ rest.dropWhile Literal.isDigit = rest := by
    cases rest with
    | nil => exact ⟨rfl, rfl⟩
    | cons b rest =>
        have other := (ends b rfl).1
        exact ⟨List.takeWhile_cons_of_neg (ne_true_of_eq_false other),
          List.dropWhile_cons_of_neg (ne_true_of_eq_false other)⟩
  have found := filterMap_digit? isDigit
  rw [digits, bytes_digits isDigit, List.takeWhile_append_of_pos all, List.dropWhile_append_of_pos all,
    stopped.1, stopped.2, List.append_nil, found]

/-- The digits of a number do not start with a zero, but for those of zero itself. -/
theorem toDigits_cases (n : Nat) :
    n = 0 ∧ Nat.toDigits 10 n = ['0'] ∨
      ∃ d later, d ≠ 0 ∧ d < 10 ∧ Nat.toDigits 10 n = Nat.digitChar d :: later := by
  induction n using Nat.strongRecOn with
  | _ n ih =>
      rcases Nat.lt_or_ge n 10 with small | large
      · rw [Nat.toDigits_of_lt_base small]
        rcases Nat.eq_zero_or_pos n with rfl | positive
        · exact .inl ⟨rfl, rfl⟩
        · exact .inr ⟨n, [], by omega, small, rfl⟩
      · rw [Nat.toDigits_of_base_le (by decide) large]
        rcases ih (n / 10) (by omega) with ⟨zero, -⟩ | ⟨d, later, nonzero, small, digits⟩
        · omega
        · refine .inr ⟨d, later ++ [Nat.digitChar (n % 10)], nonzero, small, ?_⟩
          rw [digits]
          rfl

theorem isDigit_natural (n : Nat) : ∀ c ∈ Printer.natural n, c.isDigit = true :=
  fun _ mem => Nat.isDigit_of_mem_toDigits (by decide) (by decide) mem

/-! ## Literals -/

theorem readWhole_natural (atEnd : Cause) (n : Nat) (ends : Ends rest) :
    readWhole atEnd (bytes (Printer.natural n) ++ rest) =
      .ok (values (Printer.natural n), rest) := by
  rcases toDigits_cases n with ⟨-, zero⟩ | ⟨d, later, nonzero, small, digits⟩
  · rw [Printer.natural, zero]
    show readWhole atEnd (0x30 :: rest) = _
    cases rest with
    | nil => rfl
    | cons b rest =>
        have other := (ends b rfl).1
        show (if isDigit b then _ else _) = _
        rw [if_neg (ne_true_of_eq_false other)]
        rfl
  · have all := isDigit_natural n
    rw [Printer.natural, digits] at all ⊢
    have first := digit?_byte (all _ List.mem_cons_self)
    have value : (Nat.digitChar d).toNat - '0'.toNat = d :=
      Nat.toNat_digitChar_sub_48_of_lt_ten small
    rw [value] at first
    have rest_digits := digits_append (fun c mem => all c (List.mem_cons_of_mem _ mem)) ends
    have front : bytes (Nat.digitChar d :: later) ++ rest =
        UInt8.ofNat (Nat.digitChar d).toNat :: (bytes later ++ rest) := by
      rw [bytes, List.flatMap_cons, first.1]
      rfl
    obtain ⟨k, rfl⟩ := Nat.exists_eq_succ_of_ne_zero nonzero
    rw [front, readWhole.eq_def]
    simp only [first.2, rest_digits]
    rw [values, values, List.map_cons, value]

theorem readFraction_of_ends (atEnd : Cause) (ends : Ends rest) :
    readFraction atEnd rest = .ok ([], rest) := by
  cases rest with
  | nil => rfl
  | cons b rest =>
      have noPoint := beq_false_of_ne (ends b rfl).2.1
      simp [readFraction, noPoint]

theorem readExponent_of_ends (atEnd : Cause) (ends : Ends rest) :
    readExponent atEnd rest = .ok (none, rest) := by
  cases rest with
  | nil => rfl
  | cons b rest =>
      have notSmall := beq_false_of_ne (ends b rfl).2.2.1
      have notCapital := beq_false_of_ne (ends b rfl).2.2.2
      simp [readExponent, notSmall, notCapital]

/-- A printed number starts with a digit. -/
theorem exists_digit_eq (n : Nat) :
    ∃ b later, bytes (Printer.natural n) = b :: later ∧ isDigit b = true := by
  have all := isDigit_natural n
  cases digits : Printer.natural n with
  | nil => exact absurd digits Nat.toDigits_ne_nil
  | cons c later =>
      rw [digits] at all
      refine ⟨UInt8.ofNat c.toNat, _, bytes_digits all, ?_⟩
      rw [isDigit, (digit?_byte (all c List.mem_cons_self)).2]
      rfl

theorem ne_minus_of_isDigit {b : UInt8} (digit : isDigit b = true) : (b == 0x2D) = false := by
  rw [beq_eq_false_iff_ne]
  rintro rfl
  contradiction

/-- A printed number, behind its sign if it has one. -/
theorem read_natural (atEnd : Cause) (n : Nat) (ends : Ends rest) :
    read atEnd (bytes (Printer.natural n) ++ rest) =
        .ok ({ negative := false, whole := values (Printer.natural n) }, rest) ∧
      read atEnd (0x2D :: (bytes (Printer.natural n) ++ rest)) =
        .ok ({ negative := true, whole := values (Printer.natural n) }, rest) := by
  have whole := readWhole_natural atEnd n ends
  have fraction := readFraction_of_ends atEnd ends
  have exponent := readExponent_of_ends atEnd ends
  constructor
  · obtain ⟨b, later, front, digit⟩ := exists_digit_eq n
    rw [front, List.cons_append] at whole ⊢
    simp [read, ne_minus_of_isDigit digit, whole, fraction, exponent, bind, Except.bind]
  · simp [read, whole, fraction, exponent, bind, Except.bind]

/-! ## Values -/

/-- Digits do not make a number smaller. -/
theorem le_ofDigitChars (cs : List Char) (value : Nat) : value ≤ Nat.ofDigitChars 10 cs value := by
  induction cs generalizing value with
  | nil => simp
  | cons c cs ih =>
      rw [Nat.ofDigitChars_cons]
      have := ih (10 * value + (c.toNat - '0'.toNat))
      omega

/-- Digits are appended one after the other while the number stays within the limit. -/
theorem absorb_values {limit : Nat} (value used : Nat)
    (within : Nat.ofDigitChars 10 cs value ≤ limit) :
    absorb limit value used (values cs) =
      (Nat.ofDigitChars 10 cs value, used + cs.length, []) := by
  induction cs generalizing value used with
  | nil => simp [values, absorb]
  | cons c cs ih =>
      rw [Nat.ofDigitChars_cons] at within ⊢
      have step : 10 * value + (c.toNat - '0'.toNat) = value * 10 + (c.toNat - '0'.toNat) := by
        omega
      rw [step] at within ⊢
      have fits := Nat.le_trans (le_ofDigitChars cs _) within
      show (if limit < _ then _ else absorb limit _ _ (values cs)) = _
      rw [if_neg (Nat.not_lt.2 fits), ih _ _ within, List.length_cons]
      congr 2
      omega

theorem value_natural {n : Nat} (fits : n < UInt64.size) (negative : Bool) :
    value { negative, whole := values (Printer.natural n) } rest =
      .ok (integer? negative n) := by
  have total : Nat.ofDigitChars 10 (Printer.natural n) 0 = n := Nat.ofDigitChars_ten_toDigits
  have within : Nat.ofDigitChars 10 (Printer.natural n) 0 ≤ maxSignificand := by
    rw [total, maxSignificand]
    omega
  simp [value, absorb_values 0 0 within, total]

end Literal

namespace Number

variable {rest : Bytes}

theorem read_natural {n : Nat} (fits : n < UInt64.size) (ends : Ends rest) :
    read (bytes (Printer.natural n) ++ rest) = .ok (.integer n, rest) := by
  simp only [read, (Literal.read_natural .endOfValue n ends).1, Literal.value_natural fits, bind,
    Except.bind]
  rfl

/-- An integer of 64 bits with a sign comes back as such. -/
theorem read_integer {n : Int} (least : -(UInt64.size / 2 : Nat) ≤ n) (greatest : n < UInt64.size)
    (ends : Ends rest) : read (bytes (Printer.integer n) ++ rest) = .ok (.integer n, rest) := by
  rw [Printer.integer]
  split
  · next negative =>
      have front : bytes ('-' :: Printer.natural n.natAbs) ++ rest =
          0x2D :: (bytes (Printer.natural n.natAbs) ++ rest) := rfl
      have small : n.natAbs ≤ UInt64.size / 2 := by omega
      have fits : n.natAbs < UInt64.size := Nat.lt_of_le_of_lt small (by decide)
      have value : (Literal.integer? true n.natAbs) = .integer n := by
        have nonzero : n.natAbs ≠ 0 := by omega
        have back : -(n.natAbs : Int) = n := by omega
        simp only [Literal.integer?, Bool.not_true, Bool.false_eq_true, if_false, nonzero, small,
          ne_eq, not_false_iff, decide_true, Bool.and_self, if_true, back]
      rw [front]
      simp only [read, (Literal.read_natural .endOfValue n.natAbs ends).2,
        Literal.value_natural fits, bind, Except.bind, value]
  · next positive =>
      have back : (n.natAbs : Int) = n := by omega
      rw [read_natural (by omega) ends, back]

end Number

end ChatHall.Json
