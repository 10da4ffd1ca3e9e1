/-
# Environment files

Files of assignments, one a line, that fill in variables which the environment
does not have. Single quotes keep a value as it is, double quotes allow escapes,
and outside single quotes a dollar sign stands for the value of a variable. A
file is read up to its first bad line, or to a value that cannot be set; what it
has set until then stays set.
-/

import ChatHall.Config.Environment
import ChatHall.Text.Alphanumeric
import ChatHall.Text.Blank
import ChatHall.Text.Utf8

namespace ChatHall.Config.EnvFile

open ChatHall.Text

/-- Where the reader of a value stands. `quoted` tells whether a double quote is open. -/
inductive Mode
  | open (quoted : Bool)
  | literal
  | escape (quoted : Bool)
  /-- A variable's name has begun, its characters latest first. -/
  | name (quoted : Bool) (chars : List Char)
  /-- The same inside braces. -/
  | braced (quoted : Bool) (chars : List Char)
  /-- The value is complete and only blanks or a comment may follow. -/
  | closed
  | comment
  deriving Repr, DecidableEq

/-- The reader after one more character, with the characters of the value, latest
first. `lookup` gives the value of a variable. -/
def step (lookup : String → String) (mode : Mode) (out : List Char) (c : Char) :
    Option (Mode × List Char) :=
  let substituted (chars : List Char) : List Char :=
    (lookup (String.ofList chars.reverse)).toList.reverse ++ out
  match mode with
  | .closed =>
    if c = ' ' || c = '\t' then some (.closed, out)
    else if c = '#' then some (.comment, out)
    else none
  | .comment => some (.comment, out)
  | .escape quoted =>
    if c ∈ ['\\', '\'', '"', '$', ' '] then some (.open quoted, c :: out)
    else if c = 'n' then some (.open quoted, '\n' :: out)
    else none
  | .literal => if c = '\'' then some (.open false, out) else some (.literal, c :: out)
  | .name quoted chars =>
    if Alphanumeric.isAlphanumeric c then some (.name quoted (c :: chars), out)
    else if c = '\x7b' && chars.isEmpty then some (.braced quoted [], out)
    else if c = '$' then some (.name quoted [], substituted chars)
    else some (.open quoted, c :: substituted chars)
  | .braced quoted chars =>
    if c = '\x7d' then some (.open quoted, substituted chars)
    else some (.braced quoted (c :: chars), out)
  | .open quoted =>
    if c = '$' then some (.name quoted [], out)
    else if c = '"' then some (.open !quoted, out)
    else if c = '\\' then some (.escape quoted, out)
    else if quoted then some (.open true, c :: out)
    else if c = '\'' then some (.literal, out)
    else if c = ' ' || c = '\t' then some (.closed, out)
    else some (.open false, c :: out)

/-- The value at the end of its text; an open quote or brace is refused. -/
def finish (lookup : String → String) (mode : Mode) (out : List Char) : Option (List Char) :=
  match mode with
  | .open false | .escape false | .closed | .comment => some out
  | .name false chars => some ((lookup (String.ofList chars.reverse)).toList.reverse ++ out)
  | _ => none

def value? (lookup : String → String) (text : List Char) : Option String := do
  let (mode, out) ← text.foldlM (fun (mode, out) c => step lookup mode out c) (Mode.open false, [])
  let out ← finish lookup mode out
  some (String.ofList out.reverse)

/-- The name at the front of a text and what follows it. -/
def key? : List Char → Option (String × List Char)
  | [] => none
  | c :: s =>
    if c.isAlpha || c = '_' then
      let inner (c : Char) : Bool := c.isAlphanum || c = '_' || c = '.'
      some (String.ofList (c :: s.takeWhile inner), s.dropWhile inner)
    else none

inductive Line
  | blank
  | assignment (name value : String)
  | bad
  deriving Repr, DecidableEq

def skipBlanks (s : List Char) : List Char := s.dropWhile isBlank

def trimEnd (s : List Char) : List Char := (s.reverse.dropWhile isBlank).reverse

/-- The name and the value's text of an assignment. The word "export" in front of
the name is skipped, unless it is itself the name. -/
def sides? (s : List Char) : Option (String × List Char) := do
  let (name, s) ← key? s
  match name, skipBlanks s with
  | _, '=' :: s => some (name, skipBlanks s)
  | "export", s =>
    let (name, s) ← key? s
    match skipBlanks s with
    | '=' :: s => some (name, skipBlanks s)
    | _ => none
  | _, _ => none

def line (lookup : String → String) (text : String) : Line :=
  let s := skipBlanks (trimEnd text.toList)
  if s.isEmpty || s.head? = some '#' then .blank
  else
    match sides? s with
    | none => .bad
    | some (name, s) =>
      if s.isEmpty || s.head? = some '#' then .assignment name ""
      else
        match value? lookup s with
        | some v => .assignment name v
        | none => .bad

/-- The lines of a file, without their ends; a line may end in a carriage return
in front of the line feed. -/
def lines (current : Bytes) : Bytes → List Bytes
  | [] => if current.isEmpty then [] else [current.reverse]
  | 0x0A :: s =>
    let ended := match current with
      | 0x0D :: rest => rest
      | other => other
    ended.reverse :: lines [] s
  | b :: s => lines (b :: current) s

/-- The value of a name: what stands behind it in the environment, else what an earlier line
says, else nothing. -/
def lookup (env : Environment) (earlier : Table String String) (name : String) : String :=
  ((env.behind? name).orElse fun () => earlier.find? name).getD ""

/-- How the reading of a file ends. -/
inductive Ending
  | whole
  | badLine
  /-- A value could not be set. -/
  | panicked (p : Panic)
  deriving Repr, DecidableEq

/-- Takes in lines as far as it goes. -/
def loadLines (env : Environment) (earlier : Table String String) :
    List Bytes → Environment × Ending
  | [] => (env, .whole)
  | l :: rest =>
    match Utf8.decode l with
    | .error _ => (env, .badLine)
    | .ok text =>
      match line (lookup env earlier) text with
      | .blank => loadLines env earlier rest
      | .bad => (env, .badLine)
      | .assignment name value =>
        match env.setDefault name value with
        | .error p => (env, .panicked p)
        | .ok env => loadLines env (earlier.insert name value) rest

def load (env : Environment) (contents : Bytes) : Environment × Ending :=
  loadLines env {} (lines [] contents)

end ChatHall.Config.EnvFile
