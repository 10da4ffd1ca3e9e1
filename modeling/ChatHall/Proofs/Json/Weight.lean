/-
# What a text weighs

The weight of a text is the number of bytes that it takes when it is printed between
quotes, the quotes left out. It is additive, a digit weighs one byte, and it can be
told byte by byte, which is how a text is read. A text that is shown in a message is
escaped twice, once for the message and once when that is printed.
-/

import ChatHall.Json.Fault
import ChatHall.Proofs.Decimal.Shortest
import ChatHall.Proofs.Json.Size

namespace ChatHall.Json

open ChatHall.Text
open Printer (bytes textChar)

/-- How many bytes a character takes between quotes. -/
def charWeight (c : Char) : Nat := (bytes (textChar c)).length

def weight (s : String) : Nat := (s.toList.map charWeight).sum

theorem weight_ofList (cs : List Char) : weight (String.ofList cs) = (cs.map charWeight).sum := by
  rw [weight, String.toList_ofList]

theorem weight_append (s t : String) : weight (s ++ t) = weight s + weight t := by
  rw [weight, String.toList_append, List.map_append, List.sum_append, weight, weight]

theorem weight_toString (s : String) : weight (toString s) = weight s := rfl

/-- A printed text is as long as the text is heavy, and has two quotes. -/
theorem length_text (s : String) : (bytes (Printer.text s)).length = weight s + 2 := by
  have inside (cs : List Char) :
      (bytes (cs.flatMap textChar)).length = (cs.map charWeight).sum := by
    induction cs with
    | nil => rfl
    | cons c cs ih =>
        rw [List.flatMap_cons, bytes_append, List.length_append, ih, List.map_cons, List.sum_cons,
          charWeight]
  have whole := congrArg List.length (bytes_text s [])
  rw [List.append_nil, List.length_cons, List.length_append, List.length_singleton, inside] at whole
  exact whole

/-! ## Digits -/

/-- A character that is neither escaped nor beyond seven bits is one byte. -/
theorem charWeight_of_ascii {c : Char} (printable : ¬ c.toNat < 0x20) (ascii : c.toNat < 0x80)
    (notQuote : c ≠ '"') (notBackslash : c ≠ '\\') : charWeight c = 1 := by
  have other (n : Nat) (control : n < 0x20) : (c.toNat == n) = false :=
    beq_false_of_ne fun same => printable (same ▸ control)
  have otherChar {d : Char} (control : d.toNat < 0x20) : (c == d) = false :=
    beq_false_of_ne fun same => printable (same ▸ control)
  have single : textChar c = [c] := by
    rw [textChar]
    simp only [beq_false_of_ne notQuote, beq_false_of_ne notBackslash, other 0x08 (by decide),
      other 0x0C (by decide), otherChar (d := '\n') (by decide), otherChar (d := '\r') (by decide),
      otherChar (d := '\t') (by decide), printable, Bool.false_eq_true, if_false]
  rw [charWeight, single, bytes, List.flatMap_singleton, Utf8.encodeChar]
  simp only [ascii, if_true, List.length_singleton]

theorem charWeight_of_isDigit {c : Char} (digit : c.isDigit = true) : charWeight c = 1 := by
  have range : 48 ≤ c.toNat ∧ c.toNat ≤ 57 := Char.isDigit_iff_toNat.1 digit
  apply charWeight_of_ascii
  · omega
  · omega
  · rintro rfl
    contradiction
  · rintro rfl
    contradiction

theorem charWeight_digitChar (d : Nat) : charWeight (Nat.digitChar d) = 1 := by
  by_cases small : d < 16
  · revert small
    revert d
    decide
  · have star : Nat.digitChar d = '*' := by
      rw [Nat.digitChar]
      iterate 16 rw [if_neg (by omega)]
    rw [star]
    decide

theorem sum_charWeight_eq_length {cs : List Char} (light : ∀ c ∈ cs, charWeight c = 1) :
    (cs.map charWeight).sum = cs.length := by
  rw [List.map_congr_left light, List.map_const', List.sum_replicate_nat, Nat.mul_one]

theorem weight_digitText (digits : List Nat) : weight (Decimal.digitText digits) = digits.length := by
  rw [Decimal.digitText, weight_ofList, sum_charWeight_eq_length, List.length_map]
  intro c mem
  obtain ⟨d, -, rfl⟩ := List.mem_map.1 mem
  exact charWeight_digitChar d

/-- A number in a text takes a byte a digit. -/
theorem weight_toString_le (digits : Nat) {n : Nat} (positive : 0 < digits)
    (below : n < 10 ^ digits) :
    weight (toString n) ≤ digits := by
  have shown : toString n = String.ofList (Nat.toDigits 10 n) := rfl
  rw [shown, weight_ofList, sum_charWeight_eq_length fun c mem =>
    charWeight_of_isDigit (Nat.isDigit_of_mem_toDigits (by decide) (by decide) mem)]
  exact Nat.toDigits_length 10 n digits positive below

/-! ## Floats -/

theorem weight_positional_le {s : Decimal.Scientific} (digits : s.digits.length ≤ 22)
    (low : -5 ≤ s.exponent) (high : s.exponent < 16) : weight s.positional ≤ 39 := by
  rw [Decimal.Scientific.positional]
  split
  · have zero : weight "0." = 2 := rfl
    rw [weight_append, zero, weight_digitText, List.length_append, List.length_replicate]
    omega
  · have point : weight "." = 1 := rfl
    dsimp only
    rw [weight_append, weight_append, point, weight_digitText, weight_digitText, List.length_append,
      List.length_replicate, List.length_take]
    split
    · rw [List.length_singleton]
      omega
    · rw [List.length_drop]
      omega

theorem weight_exponential_le {s : Decimal.Scientific} (digits : s.digits.length ≤ 22)
    (exponent : s.exponent.natAbs < 1000) : weight s.exponential ≤ 39 := by
  have number := weight_toString_le 3 (by decide) exponent
  have fraction : weight (if (s.digits.drop 1).isEmpty then ""
      else "." ++ Decimal.digitText (s.digits.drop 1)) ≤ 22 := by
    split
    · exact Nat.zero_le 22
    · have point : weight "." = 1 := rfl
      rw [weight_append, point, weight_digitText, List.length_drop]
      omega
  have letter : weight "e" = 1 := rfl
  have sign : weight (if s.exponent < 0 then "-" else "+") = 1 := by split <;> rfl
  rw [Decimal.Scientific.exponential]
  simp only [weight_append, weight_toString, weight_digitText, letter, sign, List.length_take]
  omega

theorem weight_scientific_le {s : Decimal.Scientific} (digits : s.digits.length ≤ 22)
    (exponent : s.exponent.natAbs < 1000) :
    weight (if -5 ≤ s.exponent && s.exponent < 16 then s.positional else s.exponential) ≤ 39 := by
  split
  · next near =>
      rw [Bool.and_eq_true, decide_eq_true_eq, decide_eq_true_eq] at near
      exact weight_positional_le digits near.1 near.2
  · exact weight_exponential_le digits exponent

/-- A float is shown in at most forty bytes, those that are no numbers included. -/
theorem weight_floatText_le (bits : UInt64) : weight (Decimal.floatText bits) ≤ 40 := by
  have sign : weight (if bits.toNat / Decimal.Shortest.twoTo 63 = 1 then "-" else "") ≤ 1 := by
    split
    · exact Nat.le_refl 1
    · exact Nat.zero_le 1
  obtain ⟨digits, exponent⟩ :=
    Decimal.shortest_bounds (UInt64.ofNat (bits.toNat % Decimal.Shortest.twoTo 63))
  have magnitude := weight_scientific_le digits exponent
  have zero : weight "0.0" = 3 := rfl
  rw [Decimal.floatText]
  dsimp only
  generalize (if bits.toNat / Decimal.Shortest.twoTo 63 = 1 then "-" else "") = shown at sign ⊢
  split
  · rw [weight_append]
    omega
  · rw [weight_append]
    omega

/-! ## Bytes -/

/-- How many bytes a byte of a text takes when the text is printed between quotes. -/
def Text.weigh (b : UInt8) : Nat :=
  if b = 0x22 ∨ b = 0x5C ∨ b = 0x08 ∨ b = 0x09 ∨ b = 0x0A ∨ b = 0x0C ∨ b = 0x0D then 2
  else if b < 0x20 then 6
  else 1

theorem Text.weigh_of_isPlain {b : UInt8} (plain : Text.IsPlain b) : Text.weigh b = 1 := by
  obtain ⟨notQuote, notBackslash, printable⟩ := plain
  rw [Text.weigh, if_neg, if_neg printable]
  rintro (rfl | rfl | rfl | rfl | rfl | rfl | rfl)
  · exact notQuote rfl
  · exact notBackslash rfl
  all_goals exact printable (by decide)

/-- The weight of a character can be told from its bytes. -/
theorem sum_weigh_encodeChar (c : Char) :
    ((Utf8.encodeChar c).map Text.weigh).sum = charWeight c := by
  have same {n : Nat} (code : (c.toNat == n) = true) : c = Char.ofNat n := by
    rw [← eq_of_beq code, Char.ofNat_toNat]
  rw [charWeight, textChar]
  split_ifs with quote backslash backspace formFeed newline return_ tab control
  · obtain rfl := eq_of_beq quote
    rfl
  · obtain rfl := eq_of_beq backslash
    rfl
  · obtain rfl := same backspace
    rfl
  · obtain rfl := same formFeed
    rfl
  · obtain rfl := eq_of_beq newline
    rfl
  · obtain rfl := eq_of_beq return_
    rfl
  · obtain rfl := eq_of_beq tab
    rfl
  · have codes : ∀ n < 0x20, n = 0x08 ∨ n = 0x0C ∨ n = 0x0A ∨ n = 0x0D ∨ n = 0x09 ∨
        Text.weigh (UInt8.ofNat n) = 6 := by decide
    have char {n : Nat} {d : Char} (code : c.toNat = n) (is : d.toNat = n) : (c == d) = true :=
      beq_of_eq (Char.toNat_inj.1 (code.trans is.symm))
    have weighs : Text.weigh (UInt8.ofNat c.toNat) = 6 := by
      rcases codes _ control with code | code | code | code | code | six
      · exact absurd (beq_of_eq code) backspace
      · exact absurd (beq_of_eq code) formFeed
      · exact absurd (char code rfl) newline
      · exact absurd (char code rfl) return_
      · exact absurd (char code rfl) tab
      · exact six
    obtain ⟨high, low, highDigit, lowDigit, -⟩ := Text.hexValue?_control control
    have printed : (bytes ['\\', 'u', '0', '0', Printer.hexDigit (c.toNat / 16),
        Printer.hexDigit c.toNat]).length = 6 := by
      simp only [bytes, List.flatMap_cons, List.flatMap_nil, highDigit, lowDigit]
      rfl
    have single : Utf8.encodeChar c = [UInt8.ofNat c.toNat] := by
      rw [Utf8.encodeChar]
      exact if_pos (Nat.lt_trans control (by decide))
    rw [printed, single, List.map_singleton, List.sum_singleton, weighs]
  · have plain := Text.isPlain_of_mem_encodeChar (ne_of_beq_false (eq_false_of_ne_true quote))
      (ne_of_beq_false (eq_false_of_ne_true backslash)) control
    rw [List.map_congr_left fun b mem => Text.weigh_of_isPlain (plain b mem), List.map_const',
      List.sum_replicate_nat, Nat.mul_one, bytes, List.flatMap_singleton]

theorem sum_weigh_encode (s : String) : ((Utf8.encode s).map Text.weigh).sum = weight s := by
  rw [Utf8.encode, weight]
  induction s.toList with
  | nil => rfl
  | cons c cs ih =>
      rw [List.flatMap_cons, List.map_append, List.sum_append, ih, sum_weigh_encodeChar,
        List.map_cons, List.sum_cons]

/-- A text is at least as heavy as it is long. -/
theorem length_encode_le_weight (t : String) : (Utf8.encode t).length ≤ weight t := by
  rw [← sum_weigh_encode]
  induction Utf8.encode t with
  | nil => exact Nat.le_refl 0
  | cons b bs ih =>
      have byte : 1 ≤ Text.weigh b := by
        rw [Text.weigh]
        split_ifs <;> decide
      rw [List.length_cons, List.map_cons, List.sum_cons]
      omega

theorem one_le_length_encodeChar (c : Char) : 1 ≤ (Utf8.encodeChar c).length := by
  rw [Utf8.encodeChar]
  split_ifs <;> exact Nat.le_add_left 1 _

theorem length_le_weight (t : String) : t.length ≤ weight t := by
  have chars (cs : List Char) : cs.length ≤ (cs.flatMap Utf8.encodeChar).length := by
    induction cs with
    | nil => exact Nat.le_refl 0
    | cons c cs ih =>
        have first := one_le_length_encodeChar c
        rw [List.length_cons, List.flatMap_cons, List.length_append]
        omega
  exact Nat.le_trans (String.length_toList ▸ chars t.toList) (length_encode_le_weight t)

/-! ## Quoted texts -/

theorem charWeight_of_mem_toDigits_sixteen {n : Nat} :
    ∀ c ∈ Nat.toDigits 16 n, charWeight c = 1 := by
  induction n using Nat.strong_induction_on with
  | h n ih =>
      intro c mem
      rw [Nat.toDigits_eq_if (by decide)] at mem
      split at mem
      · rw [List.mem_singleton.1 mem]
        exact charWeight_digitChar n
      · rcases List.mem_append.1 mem with front | last
        · exact ih (n / 16) (by omega) c front
        · rw [List.mem_singleton.1 last]
          exact charWeight_digitChar (n % 16)

/-- What is shown of a character by its number has two to six digits, the more the longer the
character itself. -/
theorem weight_quotedNumber_le (c : Char) :
    weight ("\\u\x7b" ++ String.ofList (Nat.toDigits 16 c.toNat) ++ "\x7d") ≤
      7 * (Utf8.encodeChar c).length := by
  have opening : weight "\\u\x7b" = 4 := rfl
  have closing : weight "\x7d" = 1 := rfl
  have digits (count : Nat) (positive : 0 < count) (below : c.toNat < 16 ^ count) :
      (Nat.toDigits 16 c.toNat).length ≤ count :=
    Nat.toDigits_length 16 c.toNat count positive below
  have scalar : c.toNat < 0xD800 ∨ 0xDFFF < c.toNat ∧ c.toNat < 0x110000 := c.valid
  rw [weight_append, weight_append, opening, closing, weight_ofList,
    sum_charWeight_eq_length charWeight_of_mem_toDigits_sixteen, Utf8.encodeChar]
  split_ifs with one two three
  · have shown := digits 2 (by decide) (by omega)
    rw [List.length_singleton]
    omega
  · have shown := digits 3 (by decide) (by omega)
    simp only [List.length_cons, List.length_nil]
    omega
  · have shown := digits 4 (by decide) (by omega)
    simp only [List.length_cons, List.length_nil]
    omega
  · have shown := digits 6 (by decide) (by omega)
    simp only [List.length_cons, List.length_nil]
    omega

theorem weight_quotedChar_le (c : Char) :
    weight (quotedChar c) ≤ 7 * (Utf8.encodeChar c).length := by
  have some_byte := one_le_length_encodeChar c
  have short {shown : String} (light : weight shown ≤ 7) :
      weight shown ≤ 7 * (Utf8.encodeChar c).length := by omega
  rw [quotedChar]
  split_ifs
  iterate 6 exact short (by decide)
  · apply short
    rw [Char.toString, weight, String.toList_singleton, List.map_singleton, List.sum_singleton]
    exact Nat.le_succ_of_le (length_textChar_le c)
  · exact weight_quotedNumber_le c

/-- Of the seven bytes for each byte of a quoted text, two are the escape of an escape. -/
theorem weight_quoted_le (s : String) : weight (quoted s) ≤ 7 * (Utf8.encode s).length + 4 := by
  have inside (cs : List Char) (shown : String) :
      weight (cs.foldl (fun shown c => shown ++ quotedChar c) shown) ≤
        weight shown + 7 * (cs.flatMap Utf8.encodeChar).length := by
    induction cs generalizing shown with
    | nil => exact Nat.le_refl _
    | cons c cs ih =>
        have first := weight_quotedChar_le c
        have later := ih (shown ++ quotedChar c)
        rw [weight_append] at later
        rw [List.foldl_cons, List.flatMap_cons, List.length_append]
        omega
  have quote : weight "\"" = 2 := rfl
  have chars := inside s.toList ""
  have nothing : weight "" = 0 := rfl
  rw [quoted, weight_append, weight_append, quote, String.foldl_eq_foldl_toList, Utf8.encode]
  omega

end ChatHall.Json
