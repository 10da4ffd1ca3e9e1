/-
# Reading what was written in UTF-8

The reader takes the bytes of a character off the front of any byte string that
starts with them, so it reads every text back from its bytes. It takes nothing
else: the ranges that it allows each byte leave out the overlong forms, the
surrogates and what lies beyond the last scalar value, so whatever it reads as a
character is the one way to write it.
-/

import ChatHall.Text.Utf8
import Mathlib.Tactic.Common

namespace ChatHall.Text.Utf8

/-- A byte of a number that fits in it. -/
theorem toNat_byte {n : Nat} (h : n < 256) : (UInt8.ofNat n).toNat = n :=
  UInt8.toNat_ofNat_of_lt' h

/-- The ranges of bytes in the numbers that the bytes stand for. -/
theorem within_iff (low b high : UInt8) :
    (decide (low ≤ b) && decide (b ≤ high)) = true ↔
      low.toNat ≤ b.toNat ∧ b.toNat ≤ high.toNat := by
  rw [Bool.and_eq_true, decide_eq_true_eq, decide_eq_true_eq, UInt8.le_iff_toNat_le,
    UInt8.le_iff_toNat_le]

/-- Six bits behind the mark of a continuation byte. -/
theorem isTail_byte {n : Nat} (h : n < 64) : isTail (UInt8.ofNat (0x80 + n)) = true := by
  rw [isTail, within_iff, toNat_byte (show 0x80 + n < 256 by omega)]
  exact ⟨Nat.le_add_right .., Nat.le_of_lt_succ (Nat.add_lt_add_left h 0x80)⟩

theorem tailBits_byte {n : Nat} (h : n < 64) : tailBits (UInt8.ofNat (0x80 + n)) = n := by
  rw [tailBits, toNat_byte (by omega)]
  omega

section Heads

variable {b b₁ b₂ b₃ : UInt8} (rest : Bytes)

theorem front_of_one (h : b.toNat < 0x80) :
    front b rest = .char (Char.ofNat b.toNat) 0 rest rfl :=
  if_pos (UInt8.lt_iff_toNat_lt.2 h)

theorem front_of_two (h : 0xC2 ≤ b.toNat ∧ b.toNat ≤ 0xDF) (h₁ : isTail b₁ = true) :
    front b (b₁ :: rest) =
      .char (Char.ofNat (b.toNat % 32 * 64 + tailBits b₁)) 1 rest (by simp) := by
  have notOne : ¬ b < 0x80 := fun one =>
    Nat.not_le.2 (UInt8.lt_iff_toNat_lt.1 one) (Nat.le_trans (by decide) h.1)
  have two : (decide (0xC2 ≤ b) && decide (b ≤ 0xDF)) = true :=
    (within_iff ..).2 h
  simp only [front, if_neg notOne, if_pos two, if_pos h₁]

theorem front_of_three (h : 0xE0 ≤ b.toNat ∧ b.toNat ≤ 0xEF) (h₁ : isSecondOfThree b b₁ = true)
    (h₂ : isTail b₂ = true) :
    front b (b₁ :: b₂ :: rest) =
      .char (Char.ofNat (b.toNat % 16 * 4096 + tailBits b₁ * 64 + tailBits b₂)) 2 rest
        (by simp) := by
  have notOne : ¬ b < 0x80 := fun one =>
    Nat.not_le.2 (UInt8.lt_iff_toNat_lt.1 one) (Nat.le_trans (by decide) h.1)
  have notTwo : ¬ (decide (0xC2 ≤ b) && decide (b ≤ 0xDF)) = true := fun t =>
    Nat.not_le.2 (Nat.lt_of_lt_of_le (by decide) h.1) ((within_iff ..).1 t).2
  have three : (decide (0xE0 ≤ b) && decide (b ≤ 0xEF)) = true :=
    (within_iff ..).2 h
  simp only [front, if_neg notOne, if_neg notTwo, if_pos three, if_pos h₁, if_pos h₂]

theorem front_of_four (h : 0xF0 ≤ b.toNat ∧ b.toNat ≤ 0xF4) (h₁ : isSecondOfFour b b₁ = true)
    (h₂ : isTail b₂ = true) (h₃ : isTail b₃ = true) :
    front b (b₁ :: b₂ :: b₃ :: rest) =
      .char
        (Char.ofNat (b.toNat % 8 * 262144 + tailBits b₁ * 4096 + tailBits b₂ * 64 + tailBits b₃))
        3 rest (by simp) := by
  have notOne : ¬ b < 0x80 := fun one =>
    Nat.not_le.2 (UInt8.lt_iff_toNat_lt.1 one) (Nat.le_trans (by decide) h.1)
  have notTwo : ¬ (decide (0xC2 ≤ b) && decide (b ≤ 0xDF)) = true := fun t =>
    Nat.not_le.2 (Nat.lt_of_lt_of_le (by decide) h.1) ((within_iff ..).1 t).2
  have notThree : ¬ (decide (0xE0 ≤ b) && decide (b ≤ 0xEF)) = true := fun t =>
    Nat.not_le.2 (Nat.lt_of_lt_of_le (by decide) h.1) ((within_iff ..).1 t).2
  have four : (decide (0xF0 ≤ b) && decide (b ≤ 0xF4)) = true :=
    (within_iff ..).2 h
  simp only [front, if_neg notOne, if_neg notTwo, if_neg notThree, if_pos four, if_pos h₁,
    if_pos h₂, if_pos h₃]

end Heads

/-- The second of three bytes never makes a number below U+0800 or a surrogate. -/
theorem isSecondOfThree_byte {n : Nat} (low : 0x800 ≤ n) (high : n < 0x10000)
    (scalar : n < 0xD800 ∨ 0xDFFF < n) :
    isSecondOfThree (UInt8.ofNat (0xE0 + n / 4096)) (UInt8.ofNat (0x80 + n / 64 % 64)) = true := by
  have hb := toNat_byte (show 0xE0 + n / 4096 < 256 by omega)
  have hb₁ := toNat_byte (show 0x80 + n / 64 % 64 < 256 by omega)
  have tail := isTail_byte (show n / 64 % 64 < 64 by omega)
  generalize UInt8.ofNat (0xE0 + n / 4096) = b at hb
  generalize UInt8.ofNat (0x80 + n / 64 % 64) = b₁ at hb₁ tail
  simp only [isSecondOfThree, beq_iff_eq, ← UInt8.toNat_inj, hb]
  split_ifs with lowest surrogates
  · rw [within_iff, hb₁]
    simp at lowest ⊢
    omega
  · rw [within_iff, hb₁]
    simp at surrogates ⊢
    omega
  · exact tail

/-- The second of four bytes never makes a number below U+10000 or beyond U+10FFFF. -/
theorem isSecondOfFour_byte {n : Nat} (low : 0x10000 ≤ n) (high : n < 0x110000) :
    isSecondOfFour (UInt8.ofNat (0xF0 + n / 262144)) (UInt8.ofNat (0x80 + n / 4096 % 64)) =
      true := by
  have hb := toNat_byte (show 0xF0 + n / 262144 < 256 by omega)
  have hb₁ := toNat_byte (show 0x80 + n / 4096 % 64 < 256 by omega)
  have tail := isTail_byte (show n / 4096 % 64 < 64 by omega)
  generalize UInt8.ofNat (0xF0 + n / 262144) = b at hb
  generalize UInt8.ofNat (0x80 + n / 4096 % 64) = b₁ at hb₁ tail
  simp only [isSecondOfFour, beq_iff_eq, ← UInt8.toNat_inj, hb]
  split_ifs with lowest highest
  · rw [within_iff, hb₁]
    simp at lowest ⊢
    omega
  · rw [within_iff, hb₁]
    simp at highest ⊢
    omega
  · exact tail

/-- The bytes of a character are read as that character, whatever follows. -/
theorem front_encodeChar (c : Char) (rest : Bytes) :
    ∃ b s tail h, encodeChar c ++ rest = b :: s ∧ front b s = .char c tail rest h := by
  have scalar : c.toNat < 0xD800 ∨ 0xDFFF < c.toNat ∧ c.toNat < 0x110000 := c.valid
  obtain ⟨n, hn⟩ : ∃ n, n = c.toNat := ⟨_, rfl⟩
  obtain rfl : Char.ofNat n = c := hn ▸ Char.ofNat_toNat c
  rw [← hn] at scalar
  simp only [encodeChar, ← hn]
  split_ifs with one two three
  · have h := toNat_byte (show n < 256 by omega)
    have front := front_of_one rest (b := UInt8.ofNat n) (h.symm ▸ one)
    rw [h] at front
    exact ⟨_, rest, 0, by simp, rfl, front⟩
  · have h := toNat_byte (show 0xC0 + n / 64 < 256 by omega)
    have front := front_of_two rest (b := UInt8.ofNat (0xC0 + n / 64)) (h.symm ▸ (by omega))
      (isTail_byte (show n % 64 < 64 by omega))
    have value : (0xC0 + n / 64) % 32 * 64 + n % 64 = n := by omega
    rw [h, tailBits_byte (by omega), value] at front
    exact ⟨_, _ :: rest, 1, by simp, rfl, front⟩
  · have h := toNat_byte (show 0xE0 + n / 4096 < 256 by omega)
    have front := front_of_three rest (b := UInt8.ofNat (0xE0 + n / 4096)) (h.symm ▸ (by omega))
      (isSecondOfThree_byte (by omega) three (by omega))
      (isTail_byte (show n % 64 < 64 by omega))
    have value : (0xE0 + n / 4096) % 16 * 4096 + n / 64 % 64 * 64 + n % 64 = n := by omega
    rw [h, tailBits_byte (by omega), tailBits_byte (by omega), value] at front
    exact ⟨_, _ :: _ :: rest, 2, by simp, rfl, front⟩
  · have h := toNat_byte (show 0xF0 + n / 262144 < 256 by omega)
    have front := front_of_four rest (b := UInt8.ofNat (0xF0 + n / 262144)) (h.symm ▸ (by omega))
      (isSecondOfFour_byte (by omega) (by omega))
      (isTail_byte (show n / 64 % 64 < 64 by omega)) (isTail_byte (show n % 64 < 64 by omega))
    have value : (0xF0 + n / 262144) % 8 * 262144 + n / 4096 % 64 * 4096 + n / 64 % 64 * 64 +
        n % 64 = n := by omega
    rw [h, tailBits_byte (by omega), tailBits_byte (by omega), tailBits_byte (by omega),
      value] at front
    exact ⟨_, _ :: _ :: _ :: rest, 3, by simp, rfl, front⟩

/-- Characters are read back behind those that were read before them. -/
theorem decodeFrom_flatMap_encodeChar (index : Nat) (acc cs : List Char) :
    decodeFrom index acc (cs.flatMap encodeChar) = .ok (acc.reverse ++ cs) := by
  induction cs generalizing index acc with
  | nil => simp [decodeFrom]
  | cons c cs ih =>
      obtain ⟨b, s, tail, hlength, hbytes, hfront⟩ :=
        front_encodeChar c (cs.flatMap encodeChar)
      rw [List.flatMap_cons, hbytes, decodeFrom, hfront]
      simp only
      rw [ih, List.reverse_cons, List.append_assoc, List.singleton_append]

/-- A text is read back from its bytes. -/
theorem decode_encode (s : String) : decode (encode s) = .ok s := by
  rw [decode, encode, decodeFrom_flatMap_encodeChar]
  simp [Except.map]

/-- A scalar value is the number of the character it stands for. -/
theorem toNat_ofNat_of_isValidChar {n : Nat} (h : n.isValidChar) : (Char.ofNat n).toNat = n := by
  rw [Char.ofNat, dif_pos h]
  show (UInt32.ofNatLT n _).toNat = n
  exact UInt32.toNat_ofNatLT

/-- A byte is determined by its number. -/
theorem byte_eq {b : UInt8} {n : Nat} (h : n = b.toNat) : UInt8.ofNat n = b := by
  rw [h, UInt8.ofNat_toNat]

theorem toNat_of_isTail {b : UInt8} (h : isTail b = true) :
    b.toNat = 0x80 + tailBits b ∧ tailBits b < 64 := by
  have range : 0x80 ≤ b.toNat ∧ b.toNat ≤ 0xBF := (within_iff ..).1 h
  rw [tailBits]
  omega

/-- The bits of the second of three bytes are neither those of an overlong form nor those of
a surrogate. -/
theorem toNat_of_isSecondOfThree {b b₁ : UInt8} (h : 0xE0 ≤ b.toNat ∧ b.toNat ≤ 0xEF)
    (h₁ : isSecondOfThree b b₁ = true) :
    b₁.toNat = 0x80 + tailBits b₁ ∧ tailBits b₁ < 64 ∧ 0x20 ≤ b.toNat % 16 * 64 + tailBits b₁ ∧
      (b.toNat % 16 * 64 + tailBits b₁ < 0x360 ∨ 0x37F < b.toNat % 16 * 64 + tailBits b₁) := by
  simp only [isSecondOfThree, beq_iff_eq, ← UInt8.toNat_inj, UInt8.reduceToNat] at h₁
  split_ifs at h₁ with lowest surrogates
  · rw [within_iff] at h₁
    simp only [tailBits, UInt8.reduceToNat] at h₁ ⊢
    omega
  · rw [within_iff] at h₁
    simp only [tailBits, UInt8.reduceToNat] at h₁ ⊢
    omega
  · have tail := toNat_of_isTail h₁
    omega

/-- The bits of the second of four bytes are neither those of an overlong form nor beyond the
last scalar value. -/
theorem toNat_of_isSecondOfFour {b b₁ : UInt8} (h : 0xF0 ≤ b.toNat ∧ b.toNat ≤ 0xF4)
    (h₁ : isSecondOfFour b b₁ = true) :
    b₁.toNat = 0x80 + tailBits b₁ ∧ tailBits b₁ < 64 ∧ 0x10 ≤ b.toNat % 8 * 64 + tailBits b₁ ∧
      b.toNat % 8 * 64 + tailBits b₁ < 0x110 := by
  simp only [isSecondOfFour, beq_iff_eq, ← UInt8.toNat_inj, UInt8.reduceToNat] at h₁
  split_ifs at h₁ with lowest highest
  · rw [within_iff] at h₁
    simp only [tailBits, UInt8.reduceToNat] at h₁ ⊢
    omega
  · rw [within_iff] at h₁
    simp only [tailBits, UInt8.reduceToNat] at h₁ ⊢
    omega
  · have tail := toNat_of_isTail h₁
    omega

section Heads

variable {b b₁ b₂ b₃ : UInt8}

theorem encodeChar_of_one (h : b.toNat < 0x80) : encodeChar (Char.ofNat b.toNat) = [b] := by
  have number := toNat_ofNat_of_isValidChar (n := b.toNat) (.inl (by omega))
  simp only [encodeChar, number]
  rw [if_pos h, UInt8.ofNat_toNat]

theorem encodeChar_of_two (h : 0xC2 ≤ b.toNat ∧ b.toNat ≤ 0xDF) (h₁ : isTail b₁ = true) :
    encodeChar (Char.ofNat (b.toNat % 32 * 64 + tailBits b₁)) = [b, b₁] := by
  obtain ⟨tail, small⟩ := toNat_of_isTail h₁
  have number := toNat_ofNat_of_isValidChar (n := b.toNat % 32 * 64 + tailBits b₁)
    (.inl (by omega))
  simp only [encodeChar, number]
  rw [if_neg (by omega), if_pos (by omega), byte_eq (b := b) (by omega),
    byte_eq (b := b₁) (by omega)]

theorem encodeChar_of_three (h : 0xE0 ≤ b.toNat ∧ b.toNat ≤ 0xEF)
    (h₁ : isSecondOfThree b b₁ = true) (h₂ : isTail b₂ = true) :
    encodeChar (Char.ofNat (b.toNat % 16 * 4096 + tailBits b₁ * 64 + tailBits b₂)) =
      [b, b₁, b₂] := by
  obtain ⟨second, small₁, long, scalar⟩ := toNat_of_isSecondOfThree h h₁
  obtain ⟨third, small₂⟩ := toNat_of_isTail h₂
  have number := toNat_ofNat_of_isValidChar
    (n := b.toNat % 16 * 4096 + tailBits b₁ * 64 + tailBits b₂) (by rw [Nat.isValidChar]; omega)
  simp only [encodeChar, number]
  rw [if_neg (by omega), if_neg (by omega), if_pos (by omega), byte_eq (b := b) (by omega),
    byte_eq (b := b₁) (by omega), byte_eq (b := b₂) (by omega)]

theorem encodeChar_of_four (h : 0xF0 ≤ b.toNat ∧ b.toNat ≤ 0xF4)
    (h₁ : isSecondOfFour b b₁ = true) (h₂ : isTail b₂ = true) (h₃ : isTail b₃ = true) :
    encodeChar (Char.ofNat
        (b.toNat % 8 * 262144 + tailBits b₁ * 4096 + tailBits b₂ * 64 + tailBits b₃)) =
      [b, b₁, b₂, b₃] := by
  obtain ⟨second, small₁, long, scalar⟩ := toNat_of_isSecondOfFour h h₁
  obtain ⟨third, small₂⟩ := toNat_of_isTail h₂
  obtain ⟨fourth, small₃⟩ := toNat_of_isTail h₃
  have number := toNat_ofNat_of_isValidChar
    (n := b.toNat % 8 * 262144 + tailBits b₁ * 4096 + tailBits b₂ * 64 + tailBits b₃)
    (by rw [Nat.isValidChar]; omega)
  simp only [encodeChar, number]
  rw [if_neg (by omega), if_neg (by omega), if_neg (by omega), byte_eq (b := b) (by omega),
    byte_eq (b := b₁) (by omega), byte_eq (b := b₂) (by omega), byte_eq (b := b₃) (by omega)]

end Heads

/-- A character at the front is read off its own bytes. -/
theorem eq_encodeChar_append_of_front {b : UInt8} {s rest : Bytes} {c : Char} {tail : Nat}
    {h : rest.length + tail + 1 = (b :: s).length} (hfront : front b s = .char c tail rest h) :
    b :: s = encodeChar c ++ rest := by
  unfold front at hfront
  split_ifs at hfront with one two three four
  · cases hfront
    rw [encodeChar_of_one (UInt8.lt_iff_toNat_lt.1 one), List.singleton_append]
  · rw [within_iff] at two
    split at hfront
    · cases hfront
    split_ifs at hfront with tail₁
    cases hfront
    rw [encodeChar_of_two two tail₁]
    rfl
  · rw [within_iff] at three
    split at hfront
    · cases hfront
    split_ifs at hfront with tail₁
    split at hfront
    · cases hfront
    split_ifs at hfront with tail₂
    cases hfront
    rw [encodeChar_of_three three tail₁ tail₂]
    rfl
  · rw [within_iff] at four
    split at hfront
    · cases hfront
    split_ifs at hfront with tail₁
    split at hfront
    · cases hfront
    split_ifs at hfront with tail₂
    split at hfront
    · cases hfront
    split_ifs at hfront with tail₃
    cases hfront
    rw [encodeChar_of_four four tail₁ tail₂ tail₃]
    rfl

/-- What was read as characters is the bytes of those characters. -/
theorem eq_flatMap_encodeChar_of_decodeFrom {index : Nat} {acc cs : List Char} {s : Bytes}
    (h : decodeFrom index acc s = .ok cs) :
    ∃ new, cs = acc.reverse ++ new ∧ s = new.flatMap encodeChar := by
  fun_induction decodeFrom index acc s with
  | case1 index acc =>
      cases h
      exact ⟨[], (List.append_nil _).symm, rfl⟩
  | case2 index acc b s c tail rest _ hfront ih =>
      obtain ⟨new, rfl, rfl⟩ := ih h
      refine ⟨c :: new, by simp, ?_⟩
      rw [eq_encodeChar_append_of_front hfront, List.flatMap_cons]
  | case3 => cases h
  | case4 => cases h

/-- A byte string is read as a text exactly if it is the bytes of that text. -/
theorem decode_eq_ok_iff {s : Bytes} {text : String} : decode s = .ok text ↔ s = encode text := by
  refine ⟨fun h => ?_, fun h => h ▸ decode_encode text⟩
  rw [decode] at h
  cases hcs : decodeFrom 0 [] s with
  | error flaw => simp [hcs, Except.map] at h
  | ok cs =>
      obtain ⟨new, rfl, rfl⟩ := eq_flatMap_encodeChar_of_decodeFrom hcs
      simp only [hcs, Except.map, Except.ok.injEq] at h
      rw [encode, ← h]
      simp

/-- A byte string is refused exactly if it is the bytes of no text. -/
theorem exists_decode_eq_error_iff {s : Bytes} :
    (∃ flaw, decode s = .error flaw) ↔ ∀ text, s ≠ encode text := by
  cases h : decode s with
  | error flaw =>
      refine ⟨fun _ text same => ?_, fun _ => ⟨flaw, rfl⟩⟩
      rw [decode_eq_ok_iff.2 same] at h
      cases h
  | ok text => exact ⟨nofun, fun none => absurd (decode_eq_ok_iff.1 h) (none text)⟩

end ChatHall.Text.Utf8
