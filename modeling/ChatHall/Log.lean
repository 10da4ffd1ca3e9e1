/-
# Log entries

A message with its level, the part of the program it comes from, and fields. On
a line of its own an entry leaves the terminal as it is.
-/

import ChatHall.Text.Quoted

namespace ChatHall.Log

/-- How serious an entry is, the most serious first. -/
inductive Level
  | error | warn | info | debug
  deriving Repr, DecidableEq

/-- The place of a level, the most serious being the first. -/
def Level.rank : Level → Nat
  | error => 1
  | warn => 2
  | info => 3
  | debug => 4

def Level.label : Level → String
  | error => "ERROR"
  | warn => "WARN"
  | info => "INFO"
  | debug => "DEBUG"

structure Entry where
  level : Level
  target : String
  message : String
  /-- Names with the text of their values. -/
  fields : List (String × String) := []
  deriving Repr, DecidableEq

/-- A character of a message. What could start a command to a terminal is shown by number. -/
def guardedChar (c : Char) : String :=
  let digits := Nat.toDigits 16 c.toNat
  if c ∈ ['\x07', '\x08', '\x0c', '\x1b', '\x7f'] then
    "\\x" ++ String.ofList (List.replicate (2 - digits.length) '0' ++ digits)
  else if 0x80 ≤ c.toNat && c.toNat ≤ 0x9F then
    "\\u\x7b" ++ String.ofList digits ++ "\x7d"
  else c.toString

/-- A message that leaves a terminal as it is. -/
def guarded (message : String) : String :=
  message.foldl (fun shown c => shown ++ guardedChar c) ""

def Entry.line (e : Entry) : String :=
  e.fields.foldl (fun shown (name, value) => s!"{shown} {name}={value}")
    s!"{e.level.label} {e.target}: {guarded e.message}"

end ChatHall.Log
