/-
# UTF-8

Texts as bytes, and the reader that accepts exactly the well-formed byte
strings. A byte string that is refused names the place of its first bad
sequence and how many bytes that sequence has.
-/

import ChatHall.Bytes

namespace ChatHall.Text.Utf8

def encodeChar (c : Char) : Bytes :=
  let n := c.toNat
  if n < 0x80 then [UInt8.ofNat n]
  else if n < 0x800 then [UInt8.ofNat (0xC0 + n / 64), UInt8.ofNat (0x80 + n % 64)]
  else if n < 0x10000 then
    [UInt8.ofNat (0xE0 + n / 4096), UInt8.ofNat (0x80 + n / 64 % 64), UInt8.ofNat (0x80 + n % 64)]
  else
    [UInt8.ofNat (0xF0 + n / 262144), UInt8.ofNat (0x80 + n / 4096 % 64),
      UInt8.ofNat (0x80 + n / 64 % 64), UInt8.ofNat (0x80 + n % 64)]

def encode (s : String) : Bytes := s.toList.flatMap encodeChar

/-- Why a byte string is no text. -/
inductive Flaw
  /-- A bad sequence of `count` bytes starts at byte `index`. -/
  | malformed (index count : Nat)
  /-- The input ends inside a sequence that starts at byte `index`. -/
  | truncated (index : Nat)
  deriving Repr, DecidableEq

namespace Flaw

/-- The number of bytes in front of the flaw, all of them well formed. -/
def validLength : Flaw → Nat
  | malformed index _ => index
  | truncated index => index

def message : Flaw → String
  | malformed index count => s!"invalid utf-8 sequence of {count} bytes from index {index}"
  | truncated index => s!"incomplete utf-8 byte sequence from index {index}"

end Flaw

/-- Whether the byte continues a sequence. -/
def isTail (b : UInt8) : Bool := 0x80 ≤ b && b ≤ 0xBF

/-- The payload bits of a continuation byte. -/
def tailBits (b : UInt8) : Nat := b.toNat % 64

/-- Whether `b` may follow the three-byte head `h`: neither overlong nor a surrogate. -/
def isSecondOfThree (h b : UInt8) : Bool :=
  if h == 0xE0 then 0xA0 ≤ b && b ≤ 0xBF
  else if h == 0xED then 0x80 ≤ b && b ≤ 0x9F
  else isTail b

/-- Whether `b` may follow the four-byte head `h`: neither overlong nor beyond U+10FFFF. -/
def isSecondOfFour (h b : UInt8) : Bool :=
  if h == 0xF0 then 0x90 ≤ b && b ≤ 0xBF
  else if h == 0xF4 then 0x80 ≤ b && b ≤ 0x8F
  else isTail b

/-- What stands at the front of a byte string that is not empty: a character,
which takes `tail` bytes more than one, or a bad sequence. -/
inductive Front (s : Bytes)
  | char (c : Char) (tail : Nat) (rest : Bytes) (length_eq : rest.length + tail + 1 = s.length)
  | malformed (count : Nat)
  | truncated

/-- The first character of `b :: s`, or what is wrong with it. -/
def front (b : UInt8) (s : Bytes) : Front (b :: s) :=
  if b < 0x80 then .char (Char.ofNat b.toNat) 0 s (by simp)
  else if 0xC2 ≤ b && b ≤ 0xDF then
    match s with
    | [] => .truncated
    | b₁ :: rest =>
      if isTail b₁ then .char (Char.ofNat (b.toNat % 32 * 64 + tailBits b₁)) 1 rest (by simp)
      else .malformed 1
  else if 0xE0 ≤ b && b ≤ 0xEF then
    match s with
    | [] => .truncated
    | b₁ :: s₁ =>
      if isSecondOfThree b b₁ then
        match s₁ with
        | [] => .truncated
        | b₂ :: rest =>
          if isTail b₂ then
            .char (Char.ofNat (b.toNat % 16 * 4096 + tailBits b₁ * 64 + tailBits b₂)) 2 rest
              (by simp)
          else .malformed 2
      else .malformed 1
  else if 0xF0 ≤ b && b ≤ 0xF4 then
    match s with
    | [] => .truncated
    | b₁ :: s₁ =>
      if isSecondOfFour b b₁ then
        match s₁ with
        | [] => .truncated
        | b₂ :: s₂ =>
          if isTail b₂ then
            match s₂ with
            | [] => .truncated
            | b₃ :: rest =>
              if isTail b₃ then
                .char
                  (Char.ofNat (b.toNat % 8 * 262144 + tailBits b₁ * 4096 + tailBits b₂ * 64 +
                    tailBits b₃))
                  3 rest (by simp)
              else .malformed 3
          else .malformed 2
      else .malformed 1
  else .malformed 1

/-- The characters read so far, latest first, followed by those of `s`, which
starts at byte `index` of the input. -/
def decodeFrom (index : Nat) (acc : List Char) : Bytes → Except Flaw (List Char)
  | [] => .ok acc.reverse
  | b :: s =>
    match front b s with
    | .char c tail rest _ => decodeFrom (index + tail + 1) (c :: acc) rest
    | .malformed count => .error (.malformed index count)
    | .truncated => .error (.truncated index)
termination_by s => s.length
decreasing_by omega

def decode (s : Bytes) : Except Flaw String := (decodeFrom 0 [] s).map String.ofList

end ChatHall.Text.Utf8
