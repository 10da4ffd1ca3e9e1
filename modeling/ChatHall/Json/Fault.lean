/-
# What is wrong with a JSON text

The causes for which a text is refused, and the place of the fault. The place is
kept as the number of bytes that were still unread, from which the line and the
column follow once the whole input is known. A fault found after the text has
been read to its end has no place.
-/

import ChatHall.Bytes
import ChatHall.Decimal.Shortest
import ChatHall.Text.Quoted

namespace ChatHall.Json

open ChatHall.Text

/-- A value without parts. -/
inductive Scalar
  | null
  | boolean (b : Bool)
  | integer (n : Int)
  /-- A float, by its bits. -/
  | floating (bits : UInt64)
  | text (s : String)
  deriving Repr, DecidableEq

def Scalar.message : Scalar → String
  | null => "null"
  | boolean b => s!"boolean `{b}`"
  | integer n => s!"integer `{n}`"
  | floating bits => s!"floating point `{Decimal.floatText bits}`"
  | text s => s!"string {quoted s}"

/-- What stands where something else was expected. -/
inductive Found
  | scalar (x : Scalar)
  | sequence
  | map
  deriving Repr, DecidableEq

def Found.message : Found → String
  | scalar x => x.message
  | sequence => "sequence"
  | map => "map"

/-- Why a text is refused. -/
inductive Cause
  | endOfValue
  | endOfList
  | endOfObject
  | endOfText
  | expectedValue
  | expectedIdent
  | expectedColon
  | expectedListEnd
  | expectedObjectEnd
  | keyNotText
  | trailingComma
  | trailingCharacters
  | badNumber
  | numberTooLarge
  | badEscape
  | loneSurrogate
  | unfinishedSurrogate
  | controlCharacter
  | notUnicode
  | tooDeep
  | wrongType (found : Found) (expected : String)
  | wrongValue (found : Found) (expected : String)
  | wrongLength (length : Nat) (expected : String)
  | missingField (name : String)
  | duplicateField (name : String)
  | unknownVariant (name : String) (known : List String)
  deriving Repr, DecidableEq

def Cause.message : Cause → String
  | endOfValue => "EOF while parsing a value"
  | endOfList => "EOF while parsing a list"
  | endOfObject => "EOF while parsing an object"
  | endOfText => "EOF while parsing a string"
  | expectedValue => "expected value"
  | expectedIdent => "expected ident"
  | expectedColon => "expected `:`"
  | expectedListEnd => "expected `,` or `]`"
  | expectedObjectEnd => "expected `,` or `\x7d`"
  | keyNotText => "key must be a string"
  | trailingComma => "trailing comma"
  | trailingCharacters => "trailing characters"
  | badNumber => "invalid number"
  | numberTooLarge => "number out of range"
  | badEscape => "invalid escape"
  | loneSurrogate => "lone leading surrogate in hex escape"
  | unfinishedSurrogate => "unexpected end of hex escape"
  | controlCharacter => "control character (\\u0000-\\u001F) found while parsing a string"
  | notUnicode => "invalid unicode code point"
  | tooDeep => "recursion limit exceeded"
  | wrongType found expected => s!"invalid type: {found.message}, expected {expected}"
  | wrongValue found expected => s!"invalid value: {found.message}, expected {expected}"
  | wrongLength length expected => s!"invalid length {length}, expected {expected}"
  | missingField name => s!"missing field `{name}`"
  | duplicateField name => s!"duplicate field `{name}`"
  | unknownVariant name known =>
    let names := ", ".intercalate (known.map fun k => s!"`{k}`")
    s!"unknown variant `{name}`, expected one of {names}"

/-- A cause and, if it has a place, the number of bytes that were unread there. -/
structure Fault where
  cause : Cause
  left : Option Nat
  deriving Repr, DecidableEq

/-- The line and the column of the last of some bytes, or of the start: lines count
from one, columns count the bytes of the line. -/
def lineAndColumn (consumed : Bytes) : Nat × Nat :=
  (1 + consumed.count 0x0A, (consumed.reverse.takeWhile (· ≠ 0x0A)).length)

def Fault.message (input : Bytes) (f : Fault) : String :=
  match f.left with
  | none => f.cause.message
  | some left =>
    let (line, column) := lineAndColumn (input.take (input.length - left))
    s!"{f.cause.message} at line {line} column {column}"

end ChatHall.Json
