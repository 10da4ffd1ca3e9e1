/-
# Log filters

Which entries are shown. A filter is a list of directives with commas between
them. A directive is a level, a part of the program, or both with an equals sign
between them; behind the part it may ask in brackets for a field that entries
must have, or for more than an entry by itself can have. Of the directives that
concern an entry the most specific one decides.
-/

import ChatHall.Decimal.Natural
import ChatHall.Log
import ChatHall.Text.Alphanumeric
import ChatHall.Text.Blank

namespace ChatHall.Log

open ChatHall.Text

/-- How much is shown of a part of the program. -/
structure Directive where
  /-- How the targets of the part start. -/
  part : String := ""
  /-- The fields that entries must have. -/
  fields : List String := []
  /-- Whether entries must lie in a span or have a field with a certain value. Entries lie in
  no span, so none does. -/
  conditional : Bool := false
  /-- The number of levels that are shown, from the most serious on. -/
  levels : Nat := 5
  deriving Repr, DecidableEq

/-- The number of levels that a word asks for, by name or by itself. -/
def levels? (word : String) : Option Nat :=
  (Decimal.natural? 5 word).orElse fun () =>
    match word.toLower with
    | "off" => some 0
    | "" | "error" => some 1
    | "warn" => some 2
    | "info" => some 3
    | "debug" => some 4
    | "trace" => some 5
    | _ => none

namespace Directive

/-- Whether a directive can start with the character, unless it starts with a bracket. -/
def canStart (c : Char) : Bool := c ∈ ['-', ':', '_'] || Alphanumeric.isAlphanumeric c

/-- Where the reader of a directive stands. -/
inductive Place
  | start
  /-- In the part, or in the level if there is no part. -/
  | front
  /-- In the name of a span, which started at a position. -/
  | span (start : Nat)
  /-- In a field, which started at a position. -/
  | field (start : Nat)
  /-- Behind the field. -/
  | braced
  /-- Behind the bracket. -/
  | bracketed
  /-- In the level, which started at a position. -/
  | level (start : Nat)
  deriving Repr, DecidableEq

def between (text : List Char) (start stop : Nat) : List Char :=
  (text.drop start).take (stop - start)

/-- The reader after the character at a position. What it keeps it cuts out of `text`. -/
def step (text : List Char) (place : Place) (d : Directive) (i : Nat) (c : Char) :
    Option (Place × Directive) :=
  let part := String.ofList (between text 0 i)
  match place with
  | .start =>
    if c = '[' then some (.span (i + 1), d)
    else if canStart c then some (.front, d)
    else none
  | .front =>
    if c = '=' then some (.level (i + 1), { d with part })
    else if c = '[' then some (.span (i + 1), { d with part })
    else some (.front, d)
  | .span start =>
    if c = ']' then some (.bracketed, { d with conditional := true })
    else if c = '\x7b' then some (.field (i + 1), { d with conditional := start < i })
    else some (.span start, d)
  | .field start =>
    if c ≠ '\x7d' then some (.field start, d)
    else if start = i then none
    else
      let field := between text start i
      let name := String.ofList (field.takeWhile (· ≠ '='))
      some (.braced, { d with fields := [name], conditional := d.conditional || '=' ∈ field })
  | .braced => if c = ']' then some (.bracketed, d) else none
  | .bracketed => if c = '=' then some (.level (i + 1), d) else none
  | .level start => some (.level start, d)

/-- The directive once its text has been read. Without a level all levels are shown. -/
def finish (text : List Char) (place : Place) (d : Directive) : Option Directive :=
  match place with
  | .front =>
    let word := String.ofList text
    match levels? word with
    | some levels => some { d with levels }
    | none => some { d with part := word }
  | .bracketed => some d
  | .level start =>
    match text.drop start with
    | [] => some d
    | word => (levels? (String.ofList word)).map fun levels => { d with levels }
  | _ => none

/-- The directive that a text writes. Positions are counted from the first character that is
not blank, but what is there is cut out of the whole text: blanks are part of a directive and
make it another one. -/
def parse? (text : String) : Option Directive := do
  let whole := text.toList
  let (place, d) ← (trimmed whole).zipIdx.foldlM
    (fun (place, d) (c, i) => step whole place d i c) (Place.start, {})
  finish whole place d

/-- Whether the directive is about an entry. -/
def concerns (d : Directive) (e : Entry) : Bool :=
  !d.conditional && d.part.toList.isPrefixOf e.target.toList &&
    d.fields.all fun name => name = "message" || e.fields.any (·.1 = name)

/-- Whether a directive is at least as specific as another one about the same entry: the longer
part comes first, then the greater number of fields, then the later name. -/
def outranks (d other : Directive) : Bool :=
  if d.part.length ≠ other.part.length then other.part.length < d.part.length
  else if d.fields.length ≠ other.fields.length then other.fields.length < d.fields.length
  else !(d.fields < other.fields)

end Directive

/-- The directives of a filter. One that cannot be read, like a missing one, shows what is of
interest in general, and an empty one shows errors. -/
def directives : Option String → List Directive
  | none => [{ levels := Level.info.rank }]
  | some text =>
    match ((text.splitOn ",").filter (· ≠ "")).mapM Directive.parse? with
    | none => [{ levels := Level.info.rank }]
    | some [] => [{ levels := Level.error.rank }]
    | some ds => ds

/-- The directive that decides about an entry: the latest of the most specific ones. -/
def deciding? (ds : List Directive) (e : Entry) : Option Directive :=
  (ds.filter (·.concerns e)).foldl (fun best d =>
    match best with
    | some b => if d.outranks b then some d else some b
    | none => some d) none

/-- The entries that a filter lets through. -/
def visible (filter : Option String) (entries : List Entry) : List Entry :=
  let ds := directives filter
  entries.filter fun e => (deciding? ds e).any fun d => e.level.rank ≤ d.levels

end ChatHall.Log
