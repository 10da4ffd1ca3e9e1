/-
# Printing JSON

Compact JSON: no blanks, fields in the order in which they are given. Inside
texts only the quote, the backslash and the control characters are escaped.
-/

import ChatHall.Bytes

namespace ChatHall.Json.Printer

/-- A digit of a hexadecimal number, in lower case. -/
def hexDigit (n : Nat) : Char := Nat.digitChar (n % 16)

def textChar (c : Char) : List Char :=
  if c == '"' then ['\\', '"']
  else if c == '\\' then ['\\', '\\']
  else if c.toNat == 0x08 then ['\\', 'b']
  else if c.toNat == 0x0C then ['\\', 'f']
  else if c == '\n' then ['\\', 'n']
  else if c == '\r' then ['\\', 'r']
  else if c == '\t' then ['\\', 't']
  else if c.toNat < 0x20 then ['\\', 'u', '0', '0', hexDigit (c.toNat / 16), hexDigit c.toNat]
  else [c]

/-- A text between quotes. -/
def text (s : String) : List Char := '"' :: (s.toList.flatMap textChar ++ ['"'])

def natural (n : Nat) : List Char := Nat.toDigits 10 n

def integer (n : Int) : List Char := if n < 0 then '-' :: natural n.natAbs else natural n.natAbs

def boolean (b : Bool) : List Char := (if b then "true" else "false").toList

def naturalOrNull : Option Nat → List Char
  | some n => natural n
  | none => "null".toList

def field (name : String) (value : List Char) : List Char := text name ++ ':' :: value

def fields : List (String × List Char) → List Char
  | [] => []
  | [(name, value)] => field name value
  | (name, value) :: later => field name value ++ ',' :: fields later

def object (entries : List (String × List Char)) : String :=
  String.ofList ('\x7b' :: (fields entries ++ ['\x7d']))

end ChatHall.Json.Printer
