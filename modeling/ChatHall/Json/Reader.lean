/-
# Reading JSON

A reader takes a value off the front of a byte string. This module has the
readers for what stands between values: blanks, words, commas, colons and
brackets. Each says precisely which byte is to blame: a fault "at" a byte counts
it as read, a fault "after" stops in front of the rest.
-/

import ChatHall.Json.Fault

namespace ChatHall.Json

/-- Takes a value off the front of a byte string. -/
abbrev Reader (α : Type) := Bytes → Except Fault (α × Bytes)

/-- A fault whose last byte is the first of `s`. -/
def faultAt (cause : Cause) (s : Bytes) : Fault := ⟨cause, some (s.length - 1)⟩

/-- A fault in front of `rest`. -/
def faultAfter (cause : Cause) (rest : Bytes) : Fault := ⟨cause, some rest.length⟩

/-- A fault whose place is not known yet. -/
def unplaced (cause : Cause) : Fault := ⟨cause, none⟩

/-- A fault that takes its place in front of `rest` unless it has one already. -/
def Fault.placedBefore (rest : Bytes) (f : Fault) : Fault :=
  { f with left := f.left.or (some rest.length) }

namespace Reader

/-- Whether the byte may stand between tokens. -/
def isBlank (b : UInt8) : Bool := b == 0x20 || b == 0x09 || b == 0x0A || b == 0x0D

def skipBlanks (s : Bytes) : Bytes := s.dropWhile isBlank

/-- The letters of a word, the first of which is behind. -/
def word : (letters : List Char) → Reader Unit
  | [], s => .ok ((), s)
  | _ :: _, [] => .error (faultAfter .endOfValue [])
  | c :: letters, b :: s =>
    if b.toNat = c.toNat then word letters s else .error (faultAfter .expectedIdent s)

/-- Whether a list has a further element, in front of which the reader then stands. -/
def nextItem (first : Bool) : Reader Bool := fun s =>
  let s := skipBlanks s
  match s with
  | [] => .error (faultAfter .endOfList [])
  | b :: rest =>
    if b == 0x5D then .ok (false, s)
    else if first then .ok (true, s)
    else if b == 0x2C then
      let s := skipBlanks rest
      match s with
      | [] => .error (faultAfter .endOfValue [])
      | b :: _ => if b == 0x5D then .error (faultAt .trailingComma s) else .ok (true, s)
    else .error (faultAt .expectedListEnd s)

/-- Whether an object has a further key. If so the reader stands behind its opening quote. -/
def nextKey (first : Bool) : Reader Bool := fun s =>
  let s := skipBlanks s
  let key (s : Bytes) : Except Fault (Bool × Bytes) :=
    match s with
    | [] => .error (faultAfter .endOfValue [])
    | b :: rest =>
      if b == 0x22 then .ok (true, rest)
      else if b == 0x7D then .error (faultAt .trailingComma s)
      else .error (faultAt .keyNotText s)
  match s with
  | [] => .error (faultAfter .endOfObject [])
  | b :: rest =>
    if b == 0x7D then .ok (false, s)
    else if first then key s
    else if b == 0x2C then key (skipBlanks rest)
    else .error (faultAt .expectedObjectEnd s)

def colon : Reader Unit := fun s =>
  let s := skipBlanks s
  match s with
  | [] => .error (faultAfter .endOfObject [])
  | b :: rest => if b == 0x3A then .ok ((), rest) else .error (faultAt .expectedColon s)

/-- The rest behind the end of a list, or what is wrong with the end, together with the
rest at which that was noticed. -/
def listEnd (s : Bytes) : Except (Fault × Bytes) Bytes :=
  let s := skipBlanks s
  match s with
  | [] => .error (faultAfter .endOfList [], [])
  | b :: rest =>
    if b == 0x5D then .ok rest
    else if b == 0x2C then
      let s := skipBlanks rest
      match s with
      | 0x5D :: _ => .error (faultAt .trailingComma s, s)
      | _ => .error (faultAt .trailingCharacters s, s)
    else .error (faultAt .trailingCharacters s, s)

/-- The rest behind the end of an object, or what is wrong with the end, together with
the rest at which that was noticed. -/
def objectEnd (s : Bytes) : Except (Fault × Bytes) Bytes :=
  let s := skipBlanks s
  match s with
  | [] => .error (faultAfter .endOfObject [], [])
  | b :: rest =>
    if b == 0x7D then .ok rest
    else if b == 0x2C then .error (faultAt .trailingComma s, s)
    else .error (faultAt .trailingCharacters s, s)

/-- Finishes what stands between brackets: reads the end after `inside`, which comes with
the rest that it left. The fault of the inside wins over that of the end; if it has no
place yet, its place is where the reader came to stand. -/
def closing {α : Type} (ending : Bytes → Except (Fault × Bytes) Bytes)
    (inside : Except (Fault × Bytes) (α × Bytes)) : Except Fault (α × Bytes) :=
  match inside with
  | .ok (a, s) =>
    match ending s with
    | .ok rest => .ok (a, rest)
    | .error (f, _) => .error f
  | .error (f, s) =>
    match ending s with
    | .ok rest => .error (f.placedBefore rest)
    | .error (_, rest) => .error (f.placedBefore rest)

def finished {α : Type} (value : α × Bytes) : Except Fault α :=
  match skipBlanks value.2 with
  | [] => .ok value.1
  | s => .error (faultAt .trailingCharacters s)

end Reader

end ChatHall.Json
