/-
# Reading printed texts

What is printed between quotes is read as the text that was printed. A character is
either left as it is, and then none of its bytes means anything to the reader, or it
is escaped, by a letter or by its number, and the reader undoes that. So the proof
goes character by character, whatever follows.
-/

import ChatHall.Json.Printer
import ChatHall.Json.Text
import ChatHall.Proofs.Text.Utf8

namespace ChatHall.Json

open ChatHall.Text

def Printer.bytes (printed : List Char) : Bytes := printed.flatMap Utf8.encodeChar

namespace Text

open Printer (bytes textChar)

/-! ## The pieces of a text -/

/-- Whether a byte stands for itself inside a text. -/
def IsPlain (b : UInt8) : Prop := b ≠ 0x22 ∧ b ≠ 0x5C ∧ ¬ b < 0x20

variable (seen rest : Bytes)

theorem readFrom_plain {bs : Bytes} (plain : ∀ b ∈ bs, IsPlain b) :
    readFrom seen (bs ++ rest) = readFrom (bs.reverse ++ seen) rest := by
  induction bs generalizing seen with
  | nil => rfl
  | cons b bs ih =>
      obtain ⟨notQuote, notBackslash, printable⟩ := plain b List.mem_cons_self
      have front : piece (b :: (bs ++ rest)) = .bytes [b] (bs ++ rest) (by simp) := by
        simp [piece, notQuote, notBackslash, printable]
      rw [List.cons_append, readFrom, front]
      show readFrom (b :: seen) (bs ++ rest) = _
      rw [ih (b :: seen) fun other mem => plain other (List.mem_cons_of_mem b mem)]
      simp

/-- A letter behind a backslash. -/
theorem readFrom_short {letter b : UInt8} (short : shortEscape? letter = some b)
    (notNumber : letter ≠ 0x75) :
    readFrom seen (0x5C :: letter :: rest) = readFrom (b :: seen) rest := by
  have front : piece (0x5C :: letter :: rest) =
      .bytes [b] rest (by simp only [List.length_cons]; omega) := by
    simp [piece, short, notNumber]
  rw [readFrom, front]
  rfl

/-- The number of a character in four digits, if it is no half of another one. -/
theorem readFrom_number {n : Nat} {d₁ d₂ d₃ d₄ : UInt8}
    (digits : hexValue? d₁ d₂ d₃ d₄ = some n) (notLow : isLowHalf n = false)
    (notHigh : isHighHalf n = false) :
    readFrom seen (0x5C :: 0x75 :: d₁ :: d₂ :: d₃ :: d₄ :: rest) =
      readFrom ((Utf8.encodeChar (Char.ofNat n)).reverse ++ seen) rest := by
  have front : piece (0x5C :: 0x75 :: d₁ :: d₂ :: d₃ :: d₄ :: rest) =
      .bytes (Utf8.encodeChar (Char.ofNat n)) rest (by simp only [List.length_cons]; omega) := by
    simp [piece, unicodeEscape, hex, digits, notLow, notHigh]
  rw [readFrom, front]

/-! ## Characters -/

theorem isPlain_byte {n : Nat} (small : n < 256) (notQuote : n ≠ 0x22) (notBackslash : n ≠ 0x5C)
    (printable : 0x20 ≤ n) : IsPlain (UInt8.ofNat n) := by
  have value := Utf8.toNat_byte small
  refine ⟨fun same => notQuote ?_, fun same => notBackslash ?_, fun control => ?_⟩
  · rw [← value, same]
    rfl
  · rw [← value, same]
    rfl
  · rw [UInt8.lt_iff_toNat_lt, value] at control
    exact absurd control (Nat.not_lt.2 printable)

/-- A character that is not escaped has bytes that stand for themselves. -/
theorem isPlain_of_mem_encodeChar {c : Char} (notQuote : c ≠ '"') (notBackslash : c ≠ '\\')
    (printable : ¬ c.toNat < 0x20) : ∀ b ∈ Utf8.encodeChar c, IsPlain b := by
  have scalar : c.toNat < 0xD800 ∨ 0xDFFF < c.toNat ∧ c.toNat < 0x110000 := c.valid
  have quote : c.toNat ≠ 0x22 := fun same => notQuote (Char.toNat_inj.1 same)
  have backslash : c.toNat ≠ 0x5C := fun same => notBackslash (Char.toNat_inj.1 same)
  intro b mem
  simp only [Utf8.encodeChar] at mem
  split_ifs at mem with one two three
  all_goals
    simp only [List.mem_cons, List.not_mem_nil, or_false] at mem
  · rw [mem]
    exact isPlain_byte (by omega) quote backslash (by omega)
  · rcases mem with rfl | rfl <;> exact isPlain_byte (by omega) (by omega) (by omega) (by omega)
  · rcases mem with rfl | rfl | rfl <;>
      exact isPlain_byte (by omega) (by omega) (by omega) (by omega)
  · rcases mem with rfl | rfl | rfl | rfl <;>
      exact isPlain_byte (by omega) (by omega) (by omega) (by omega)

/-- The digits of a control character's number. -/
theorem hexValue?_control {n : Nat} (control : n < 0x20) :
    ∃ high low, Utf8.encodeChar (Printer.hexDigit (n / 16)) = [high] ∧
      Utf8.encodeChar (Printer.hexDigit n) = [low] ∧
      hexValue? 0x30 0x30 high low = some n := by
  have digit (d : Nat) (small : d < 16) :
      Utf8.encodeChar (Nat.digitChar d) = [UInt8.ofNat (Nat.digitChar d).toNat] ∧
        hexDigit? (UInt8.ofNat (Nat.digitChar d).toNat) = some d := by
    revert small
    revert d
    decide
  have high := digit (n / 16 % 16) (by omega)
  have low := digit (n % 16) (by omega)
  refine ⟨_, _, high.1, low.1, ?_⟩
  have zero : hexDigit? 0x30 = some 0 := rfl
  have value : ((0 * 16 + 0) * 16 + n / 16 % 16) * 16 + n % 16 = n := by omega
  simp only [hexValue?, zero, high.2, low.2, Option.bind_eq_bind, Option.bind_some, value]

/-- A printed character is read as its bytes, whatever follows. -/
theorem readFrom_textChar (c : Char) :
    readFrom seen (bytes (textChar c) ++ rest) =
      readFrom ((Utf8.encodeChar c).reverse ++ seen) rest := by
  have same {d : Char} (n : Nat) (is : c.toNat = n) (d_eq : d = Char.ofNat n) : c = d := by
    rw [d_eq, ← is, Char.ofNat_toNat]
  rw [textChar]
  split_ifs with quote backslash backspace formFeed newline return_ tab control
  · obtain rfl := eq_of_beq quote
    exact readFrom_short seen rest rfl (by decide)
  · obtain rfl := eq_of_beq backslash
    exact readFrom_short seen rest rfl (by decide)
  · obtain rfl := same 0x08 (eq_of_beq backspace) rfl
    exact readFrom_short seen rest rfl (by decide)
  · obtain rfl := same 0x0C (eq_of_beq formFeed) rfl
    exact readFrom_short seen rest rfl (by decide)
  · obtain rfl := eq_of_beq newline
    exact readFrom_short seen rest rfl (by decide)
  · obtain rfl := eq_of_beq return_
    exact readFrom_short seen rest rfl (by decide)
  · obtain rfl := eq_of_beq tab
    exact readFrom_short seen rest rfl (by decide)
  · obtain ⟨high, low, highDigit, lowDigit, digits⟩ := hexValue?_control control
    have notLow : isLowHalf c.toNat = false := by
      simp only [isLowHalf, Bool.and_eq_false_iff, decide_eq_false_iff_not]
      omega
    have notHigh : isHighHalf c.toNat = false := by
      simp only [isHighHalf, Bool.and_eq_false_iff, decide_eq_false_iff_not]
      omega
    have printed : bytes ['\\', 'u', '0', '0', Printer.hexDigit (c.toNat / 16),
        Printer.hexDigit c.toNat] = [0x5C, 0x75, 0x30, 0x30, high, low] := by
      simp only [bytes, List.flatMap_cons, List.flatMap_nil, highDigit, lowDigit]
      rfl
    rw [printed]
    have read := readFrom_number seen rest digits notLow notHigh
    rwa [Char.ofNat_toNat] at read
  · have plain := isPlain_of_mem_encodeChar (ne_of_beq_false (eq_false_of_ne_true quote))
      (ne_of_beq_false (eq_false_of_ne_true backslash)) control
    rw [bytes, List.flatMap_singleton]
    exact readFrom_plain seen rest plain

/-! ## Texts -/

theorem readFrom_flatMap_textChar (cs : List Char) :
    readFrom seen (bytes (cs.flatMap textChar) ++ 0x22 :: rest) =
      .ok (seen.reverse ++ cs.flatMap Utf8.encodeChar, rest) := by
  induction cs generalizing seen with
  | nil =>
      have front : piece (0x22 :: rest) = .closing rest := rfl
      show readFrom seen (0x22 :: rest) = _
      rw [readFrom, front]
      simp
  | cons c cs ih =>
      have split : bytes ((c :: cs).flatMap textChar) =
          bytes (textChar c) ++ bytes (cs.flatMap textChar) := by
        rw [List.flatMap_cons, bytes, List.flatMap_append]
        rfl
      rw [split, List.append_assoc, readFrom_textChar, ih]
      simp

/-- A printed text is read as the text it was printed from, behind its opening quote. -/
theorem read_text (s : String) :
    read (bytes (s.toList.flatMap textChar) ++ 0x22 :: rest) = .ok (s, rest) := by
  have decoded : Utf8.decode (s.toList.flatMap Utf8.encodeChar) = .ok s := Utf8.decode_encode s
  simp only [read, readFrom_flatMap_textChar, List.reverse_nil, List.nil_append,
    bind, Except.bind, decoded]

end Text

end ChatHall.Json
