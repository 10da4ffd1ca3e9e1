/-
# Texts

What stands between two quotes: bytes as they are, and escapes. Characters
beyond the sixteen-bit range are escaped as two halves, a high and a low one,
and neither half may stand alone.
-/

import ChatHall.Json.Reader
import ChatHall.Text.Utf8

namespace ChatHall.Json.Text

open ChatHall.Text

/-- What stands at the front of the rest of a text: its closing quote, some of its
bytes, or a fault. -/
inductive Piece (s : Bytes)
  | closing (rest : Bytes)
  | bytes (decoded rest : Bytes) (shorter : rest.length < s.length)
  | fault (f : Fault)

def hexDigit? (b : UInt8) : Option Nat :=
  if 0x30 ≤ b && b ≤ 0x39 then some (b.toNat - 0x30)
  else if 0x41 ≤ b && b ≤ 0x46 then some (b.toNat - 0x41 + 10)
  else if 0x61 ≤ b && b ≤ 0x66 then some (b.toNat - 0x61 + 10)
  else none

def hexValue? (a b c d : UInt8) : Option Nat := do
  let a ← hexDigit? a
  let b ← hexDigit? b
  let c ← hexDigit? c
  let d ← hexDigit? d
  some (((a * 16 + b) * 16 + c) * 16 + d)

/-- Four hexadecimal digits, with the number and the rest. -/
inductive Hex (s : Bytes)
  | value (n : Nat) (rest : Bytes) (length_eq : rest.length + 4 = s.length)
  | fault (f : Fault)

def hex (s : Bytes) : Hex s :=
  match s with
  | a :: b :: c :: d :: rest =>
    match hexValue? a b c d with
    | some n => .value n rest (by simp)
    | none => .fault (faultAfter .badEscape rest)
  | _ => .fault (faultAfter .endOfText [])

def isHighHalf (n : Nat) : Bool := 0xD800 ≤ n && n ≤ 0xDBFF

def isLowHalf (n : Nat) : Bool := 0xDC00 ≤ n && n ≤ 0xDFFF

/-- The code point of two halves. -/
def join (high low : Nat) : Nat := (high - 0xD800) * 0x400 + (low - 0xDC00) + 0x10000

/-- The character that a letter behind a backslash stands for. -/
def shortEscape? (b : UInt8) : Option UInt8 :=
  if b == 0x22 || b == 0x5C || b == 0x2F then some b
  else if b == 0x62 then some 0x08
  else if b == 0x66 then some 0x0C
  else if b == 0x6E then some 0x0A
  else if b == 0x72 then some 0x0D
  else if b == 0x74 then some 0x09
  else none

/-- What a letter that introduces four digits has behind it. -/
def unicodeEscape (s : Bytes) : Piece s :=
  match hex s with
  | .fault f => .fault f
  | .value n s₁ h₁ =>
    if isLowHalf n then .fault (faultAfter .loneSurrogate s₁)
    else if isHighHalf n then
      match h : s₁ with
      | [] => .fault (faultAfter .endOfText [])
      | b :: s₂ =>
        if b == 0x5C then
          match s₂ with
          | [] => .fault (faultAfter .endOfText [])
          | b :: s₃ =>
            if b == 0x75 then
              match hex s₃ with
              | .fault f => .fault f
              | .value m rest h₂ =>
                if isLowHalf m then
                  .bytes (Utf8.encodeChar (Char.ofNat (join n m))) rest (by
                    simp only [List.length_cons] at h₁; omega)
                else .fault (faultAfter .loneSurrogate rest)
            else .fault (faultAfter .unfinishedSurrogate s₃)
        else .fault (faultAfter .unfinishedSurrogate s₂)
    else .bytes (Utf8.encodeChar (Char.ofNat n)) s₁ (by omega)

/-- The front of the rest of a text. -/
def piece (s : Bytes) : Piece s :=
  match s with
  | [] => .fault (faultAfter .endOfText [])
  | b :: s₁ =>
    if b == 0x22 then .closing s₁
    else if b == 0x5C then
      match s₁ with
      | [] => .fault (faultAfter .endOfText [])
      | e :: s₂ =>
        if e == 0x75 then
          match unicodeEscape s₂ with
          | .bytes decoded rest h => .bytes decoded rest (by simp only [List.length_cons]; omega)
          | .closing rest => .closing rest
          | .fault f => .fault f
        else
          match shortEscape? e with
          | some c => .bytes [c] s₂ (by simp only [List.length_cons]; omega)
          | none => .fault (faultAfter .badEscape s₂)
    else if b < 0x20 then .fault (faultAfter .controlCharacter s₁)
    else .bytes [b] s₁ (by simp)

/-- The bytes of a text from behind its opening quote on, and the rest behind its closing
quote. `seen` are the bytes in front, latest first. -/
def readFrom (seen : Bytes) (s : Bytes) : Except Fault (Bytes × Bytes) :=
  match piece s with
  | .closing rest => .ok (seen.reverse, rest)
  | .fault f => .error f
  | .bytes decoded rest _ => readFrom (decoded.reverse ++ seen) rest
termination_by s.length

def read : Reader String := fun s => do
  let (bytes, rest) ← readFrom [] s
  match Utf8.decode bytes with
  | .ok text => .ok (text, rest)
  | .error flaw =>
    .error ⟨.notUnicode, some (rest.length + (bytes.length - flaw.validLength))⟩

/-- The front of the rest of a text that nobody wants to know: only the form of escapes
is checked, and a control character is not counted as read. -/
def skippedPiece (s : Bytes) : Piece s :=
  match s with
  | [] => .fault (faultAfter .endOfText [])
  | b :: s₁ =>
    if b == 0x22 then .closing s₁
    else if b == 0x5C then
      match s₁ with
      | [] => .fault (faultAfter .endOfText [])
      | e :: s₂ =>
        if e == 0x75 then
          match hex s₂ with
          | .value _ rest h => .bytes [] rest (by simp only [List.length_cons]; omega)
          | .fault f => .fault f
        else if (shortEscape? e).isSome then .bytes [] s₂ (by simp only [List.length_cons]; omega)
        else .fault (faultAfter .badEscape s₂)
    else if b < 0x20 then .fault (faultAfter .controlCharacter (b :: s₁))
    else .bytes [] s₁ (by simp)

/-- The rest behind a text of which only the form is checked, from behind its opening
quote on. -/
def skip (s : Bytes) : Except Fault Bytes :=
  match skippedPiece s with
  | .closing rest => .ok rest
  | .fault f => .error f
  | .bytes _ rest _ => skip rest
termination_by s.length

end ChatHall.Json.Text
