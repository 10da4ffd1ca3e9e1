/-
# What is written in an environment file

The rules by which files are divided into lines, and by which a line is a remark or an
assignment. A value is written in pieces: characters that stand for themselves,
sections between quotes, escapes, and names that stand for what they mean. The reader of
values accepts exactly what the rules allow.
-/

import ChatHall.Config.EnvFile
import Mathlib.Data.List.TakeWhile
import Mathlib.Tactic.Common

namespace ChatHall.Config.EnvFile

open ChatHall.Text

/-! ## The rules -/

/-- Whether a character of a value stands for itself. -/
def IsPlain (quoted : Bool) (c : Char) : Prop :=
  c ≠ '$' ∧ c ≠ '"' ∧ c ≠ '\\' ∧ (quoted = true ∨ c ≠ '\'' ∧ c ≠ ' ' ∧ c ≠ '\t')

/-- Spaces and tabs, maybe with a comment behind them. -/
def IsTail (s : List Char) : Prop :=
  ∃ gap comment, s = gap ++ comment ∧ (∀ c ∈ gap, c = ' ' ∨ c = '\t') ∧
    (comment = [] ∨ comment.head? = some '#')

def IsName (chars : List Char) : Prop := ∀ c ∈ chars, Alphanumeric.isAlphanumeric c = true

/-- The rest of a value's text, in front of which a double quote is open or not, says these
characters if names have these meanings. -/
inductive Spells (meaning : String → String) : (quoted : Bool) → (text said : List Char) → Prop
  | done : Spells meaning false [] []
  /-- A backslash at the end says nothing. -/
  | dangling : Spells meaning false ['\\'] []
  /-- A space outside quotes ends the value. -/
  | ended (c : Char) (s : List Char) (space : c = ' ' ∨ c = '\t') (tail : IsTail s) :
      Spells meaning false (c :: s) []
  | plain (quoted : Bool) (c : Char) (s v : List Char) (itself : IsPlain quoted c)
      (later : Spells meaning quoted s v) : Spells meaning quoted (c :: s) (c :: v)
  | quote (quoted : Bool) (s v : List Char) (later : Spells meaning (!quoted) s v) :
      Spells meaning quoted ('"' :: s) v
  | literal (t s v : List Char) (inside : '\'' ∉ t) (later : Spells meaning false s v) :
      Spells meaning false ('\'' :: (t ++ '\'' :: s)) (t ++ v)
  | escaped (quoted : Bool) (c : Char) (s v : List Char) (known : c ∈ ['\\', '\'', '"', '$', ' '])
      (later : Spells meaning quoted s v) : Spells meaning quoted ('\\' :: c :: s) (c :: v)
  | newline (quoted : Bool) (s v : List Char) (later : Spells meaning quoted s v) :
      Spells meaning quoted ('\\' :: 'n' :: s) ('\n' :: v)
  | braced (quoted : Bool) (name s v : List Char) (inside : '\x7d' ∉ name)
      (later : Spells meaning quoted s v) :
      Spells meaning quoted ('$' :: '\x7b' :: (name ++ '\x7d' :: s))
        ((meaning (String.ofList name)).toList ++ v)
  /-- The character that ends a name stands for itself, whatever it is. -/
  | name (quoted : Bool) (name : List Char) (c : Char) (s v : List Char) (named : IsName name)
      (ends : Alphanumeric.isAlphanumeric c = false ∧ c ≠ '$' ∧ (name = [] → c ≠ '\x7b'))
      (later : Spells meaning quoted s v) :
      Spells meaning quoted ('$' :: (name ++ c :: s))
        ((meaning (String.ofList name)).toList ++ c :: v)
  /-- Unless another name begins there. -/
  | names (quoted : Bool) (name s v : List Char) (named : IsName name)
      (later : Spells meaning quoted ('$' :: s) v) :
      Spells meaning quoted ('$' :: (name ++ '$' :: s)) ((meaning (String.ofList name)).toList ++ v)
  | lastName (name : List Char) (named : IsName name) :
      Spells meaning false ('$' :: name) (meaning (String.ofList name)).toList

def IsBlanks (s : List Char) : Prop := ∀ c ∈ s, isBlank c = true

def isInner (c : Char) : Bool := c.isAlphanum || c = '_' || c = '.'

/-- The name of a variable: a letter or underscore, then also digits and dots. -/
def IsKey (s : List Char) : Prop :=
  ∃ c rest, s = c :: rest ∧ (c.isAlpha || c = '_') = true ∧ ∀ d ∈ rest, isInner d = true

/-- The word "export" and blanks may stand in front of a name. -/
def IsLead (s : List Char) : Prop :=
  s = [] ∨ ∃ gap, s = "export".toList ++ gap ∧ gap ≠ [] ∧ IsBlanks gap

/-- A line that says nothing: blanks, maybe with a remark behind them. -/
def IsRemark (text : List Char) : Prop :=
  ∃ gap remark, text = gap ++ remark ∧ IsBlanks gap ∧ (remark = [] ∨ remark.head? = some '#')

/-- What is shown behind an equals sign gives this value. -/
inductive Gives (meaning : String → String) : (shown : List Char) → (value : String) → Prop
  | nothing : Gives meaning [] ""
  | remark (s : List Char) : Gives meaning ('#' :: s) ""
  | spelled (c : Char) (s : List Char) (value : String) (other : c ≠ '#')
      (spells : Spells meaning false (c :: s) value.toList) : Gives meaning (c :: s) value

/-- A line that assigns a value to a name, with blanks around its parts. -/
inductive Assigns (meaning : String → String) : (text : List Char) → (name value : String) → Prop
  | intro (front lead gap after shown back : List Char) (name value : String)
      (blanks : IsBlanks front ∧ IsBlanks gap ∧ IsBlanks after ∧ IsBlanks back)
      (leads : IsLead lead) (key : IsKey name.toList)
      (first : ∀ c ∈ shown.head?, isBlank c = false)
      (last : ∀ c ∈ shown.getLast?, isBlank c = false) (gives : Gives meaning shown value) :
      Assigns meaning
        (front ++ (lead ++ (name.toList ++ (gap ++ '=' :: (after ++ shown)))) ++ back) name value

/-- What a line says, the bytes of a text. -/
inductive IsLine (meaning : String → String) (l : Bytes) : Line → Prop
  | blank (text : String) (written : l = Utf8.encode text) (remark : IsRemark text.toList) :
      IsLine meaning l .blank
  | assignment (text name value : String) (written : l = Utf8.encode text)
      (assigns : Assigns meaning text.toList name value) :
      IsLine meaning l (.assignment name value)
  /-- Everything else is bad. -/
  | bad (remark : ∀ text, l = Utf8.encode text → ¬ IsRemark text.toList)
      (assigns : ∀ text name value, l = Utf8.encode text →
        ¬ Assigns meaning text.toList name value) : IsLine meaning l .bad

/-- The lines of a file. A carriage return in front of a line feed is no part of the line. -/
inductive IsLines : Bytes → List Bytes → Prop
  | nothing : IsLines [] []
  | last (l : Bytes) (more : l ≠ []) (inside : 0x0A ∉ l) : IsLines l [l]
  | line (l s : Bytes) (ls : List Bytes) (inside : 0x0A ∉ l) (plain : l.getLast? ≠ some 0x0D)
      (later : IsLines s ls) : IsLines (l ++ 0x0A :: s) (l :: ls)
  | returned (l s : Bytes) (ls : List Bytes) (inside : 0x0A ∉ l) (later : IsLines s ls) :
      IsLines (l ++ 0x0D :: 0x0A :: s) (l :: ls)

/-! ## Maximal fronts -/

section Span

variable {α : Type} {p : α → Bool} {front rest : List α}

theorem exists_span (p : α → Bool) (s : List α) : ∃ front rest, s = front ++ rest ∧
    (∀ c ∈ front, p c = true) ∧ ∀ c ∈ rest.head?, p c = false := by
  induction s with
  | nil => exact ⟨[], [], rfl, by simp, by simp⟩
  | cons c s ih =>
      cases h : p c with
      | false => exact ⟨[], c :: s, rfl, by simp, by simp [h]⟩
      | true =>
          obtain ⟨front, rest, rfl, inside, stops⟩ := ih
          exact ⟨c :: front, rest, rfl, List.forall_mem_cons.2 ⟨h, inside⟩, stops⟩

variable (inside : ∀ c ∈ front, p c = true) (stops : ∀ c ∈ rest.head?, p c = false)

include inside stops

theorem takeWhile_append : (front ++ rest).takeWhile p = front := by
  rw [List.takeWhile_append_of_pos inside]
  cases rest with
  | nil => exact List.append_nil front
  | cons c rest => rw [List.takeWhile_cons, stops c rfl, if_neg Bool.false_ne_true, List.append_nil]

theorem dropWhile_append : (front ++ rest).dropWhile p = rest := by
  rw [List.dropWhile_append_of_pos inside]
  cases rest with
  | nil => rfl
  | cons c rest => rw [List.dropWhile_cons, stops c rfl, if_neg Bool.false_ne_true]

end Span

/-! ## Reading a value -/

section Value

variable (meaning : String → String) {quoted : Bool} {mode : Mode} {out s t chars name : List Char}
variable {c : Char}

/-- The characters of a value, latest first, that the reader has after a text. -/
def readFrom (mode : Mode) (out : List Char) : List Char → Option (List Char)
  | [] => finish meaning mode out
  | c :: s => (step meaning mode out c).bind fun now => readFrom now.1 now.2 s

theorem foldlM_step (mode : Mode) (out s : List Char) :
    (s.foldlM (fun now c => step meaning now.1 now.2 c) (mode, out)).bind
      (fun now => finish meaning now.1 now.2) = readFrom meaning mode out s := by
  induction s generalizing mode out with
  | nil => rfl
  | cons c s ih =>
      rw [readFrom, List.foldlM_cons]
      cases step meaning mode out c with
      | none => rfl
      | some now => exact ih now.1 now.2

theorem value?_eq (text : List Char) :
    value? meaning text =
      (readFrom meaning (.open false) [] text).map fun out => String.ofList out.reverse := by
  rw [← foldlM_step, Option.map_bind]
  show (text.foldlM (fun now c => step meaning now.1 now.2 c) (Mode.open false, [])).bind _ = _
  simp only [Option.bind_eq_bind, Option.map_eq_bind, Function.comp_def]

theorem readFrom_literal (inside : '\'' ∉ t) :
    readFrom meaning .literal out (t ++ '\'' :: s) =
      readFrom meaning (.open false) (t.reverse ++ out) s := by
  induction t generalizing out with
  | nil => rw [List.nil_append, readFrom]; rfl
  | cons c t ih =>
      rw [List.mem_cons, not_or] at inside
      rw [List.cons_append, readFrom, step, if_neg (Ne.symm inside.1), List.reverse_cons,
        List.append_assoc]
      exact ih inside.2

theorem readFrom_literal_of_notMem (inside : '\'' ∉ t) :
    readFrom meaning .literal out t = none := by
  induction t generalizing out with
  | nil => rfl
  | cons c t ih =>
      rw [List.mem_cons, not_or] at inside
      rw [readFrom, step, if_neg (Ne.symm inside.1)]
      exact ih inside.2

theorem readFrom_braced (inside : '\x7d' ∉ name) :
    readFrom meaning (.braced quoted chars) out (name ++ '\x7d' :: s) =
      readFrom meaning (.open quoted)
        ((meaning (String.ofList (chars.reverse ++ name))).toList.reverse ++ out) s := by
  induction name generalizing chars with
  | nil => rw [List.nil_append, readFrom, List.append_nil]; rfl
  | cons c name ih =>
      rw [List.mem_cons, not_or] at inside
      rw [List.cons_append, readFrom, step, if_neg (Ne.symm inside.1)]
      show readFrom meaning (.braced quoted (c :: chars)) out _ = _
      rw [ih inside.2, List.reverse_cons, List.append_assoc]
      rfl

theorem readFrom_braced_of_notMem (inside : '\x7d' ∉ t) :
    readFrom meaning (.braced quoted chars) out t = none := by
  induction t generalizing chars with
  | nil => cases quoted <;> rfl
  | cons c t ih =>
      rw [List.mem_cons, not_or] at inside
      rw [readFrom, step, if_neg (Ne.symm inside.1)]
      exact ih inside.2

theorem readFrom_name (named : IsName name) :
    readFrom meaning (.name quoted chars) out (name ++ s) =
      readFrom meaning (.name quoted (name.reverse ++ chars)) out s := by
  induction name generalizing chars with
  | nil => rfl
  | cons c name ih =>
      rw [IsName, List.forall_mem_cons] at named
      rw [List.cons_append, readFrom, step, if_pos named.1, List.reverse_cons,
        List.append_assoc]
      exact ih named.2

theorem readFrom_comment (s : List Char) : readFrom meaning .comment out s = some out := by
  induction s with
  | nil => rfl
  | cons c s ih => exact ih

/-- Behind a value there is only what may follow one. -/
theorem readFrom_closed_iff {w : List Char} :
    readFrom meaning .closed out s = some w ↔ IsTail s ∧ w = out := by
  induction s with
  | nil =>
      have empty : IsTail [] := ⟨[], [], rfl, fun c mem => absurd mem List.not_mem_nil, .inl rfl⟩
      rw [and_iff_right empty, eq_comm]
      exact Option.some_inj
  | cons c s ih =>
      rw [readFrom, step]
      by_cases space : c = ' ' ∨ c = '\t'
      · rw [if_pos (by simpa using space), Option.bind_some, ih]
        refine and_congr_left fun _ => ⟨?_, ?_⟩
        · rintro ⟨gap, comment, rfl, blank, ends⟩
          exact ⟨c :: gap, comment, rfl, List.forall_mem_cons.2 ⟨space, blank⟩, ends⟩
        · rintro ⟨gap, comment, same, blank, ends⟩
          cases gap with
          | nil =>
              subst same
              rcases ends with empty | hash
              · exact absurd empty (List.cons_ne_nil c s)
              · obtain rfl := Option.some.inj hash
                simp at space
          | cons d gap =>
              obtain ⟨rfl, rfl⟩ := List.cons.inj same
              exact ⟨gap, comment, rfl, (List.forall_mem_cons.1 blank).2, ends⟩
      · rw [if_neg (by simpa using space)]
        by_cases hash : c = '#'
        · rw [if_pos hash, Option.bind_some, readFrom_comment, Option.some_inj, eq_comm]
          refine (and_iff_right ⟨[], c :: s, rfl, ?_, .inr (congrArg some hash)⟩).symm
          exact fun c mem => absurd mem List.not_mem_nil
        · rw [if_neg hash]
          refine ⟨fun none => (nomatch none), fun ⟨⟨gap, comment, same, blank, ends⟩, _⟩ => ?_⟩
          cases gap with
          | nil =>
              subst same
              rcases ends with empty | first
              · exact absurd empty (List.cons_ne_nil c s)
              · exact absurd (Option.some.inj first) hash
          | cons d gap =>
              obtain ⟨rfl, -⟩ := List.cons.inj same
              exact absurd (List.forall_mem_cons.1 blank).1 space

/-! ### What the rules allow is read -/

theorem step_plain (itself : IsPlain quoted c) :
    step meaning (.open quoted) out c = some (.open quoted, c :: out) := by
  obtain ⟨dollar, quote, backslash, rest⟩ := itself
  rw [step, if_neg dollar, if_neg quote, if_neg backslash]
  cases quoted with
  | true => rfl
  | false =>
      obtain ⟨single, space, tab⟩ := rest.resolve_left Bool.false_ne_true
      simp [single, space, tab]

theorem step_ended (space : c = ' ' ∨ c = '\t') :
    step meaning (.open false) out c = some (.closed, out) := by
  rcases space with rfl | rfl <;> rfl

theorem step_escaped (known : c ∈ ['\\', '\'', '"', '$', ' ']) :
    step meaning (.escape quoted) out c = some (.open quoted, c :: out) := by
  rw [step, if_pos known]

theorem step_dollar : step meaning (.open quoted) out '$' = some (.name quoted [], out) := rfl

/-- A name that is read is followed by its meaning. -/
theorem readFrom_dollar (named : IsName name) :
    readFrom meaning (.open quoted) out ('$' :: (name ++ s)) =
      readFrom meaning (.name quoted name.reverse) out s := by
  rw [readFrom, step_dollar, Option.bind_some, readFrom_name meaning named, List.append_nil]

theorem step_name (ends : Alphanumeric.isAlphanumeric c = false) (other : c ≠ '$')
    (open_ : name = [] → c ≠ '\x7b') :
    step meaning (.name quoted name.reverse) out c =
      some (.open quoted, c :: ((meaning (String.ofList name)).toList.reverse ++ out)) := by
  have notOpen : (c = '\x7b' && name.reverse.isEmpty) = false := by
    rw [Bool.and_eq_false_iff, decide_eq_false_iff_not, List.isEmpty_reverse]
    by_cases empty : name = []
    · exact .inl (open_ empty)
    · exact .inr (List.isEmpty_eq_false_iff.2 empty)
  rw [step, ends, if_neg Bool.false_ne_true, notOpen, if_neg Bool.false_ne_true, if_neg other]
  simp only [List.reverse_reverse]

theorem step_brace :
    step meaning (.name quoted []) out '\x7b' = some (.braced quoted [], out) := by
  have ends : Alphanumeric.isAlphanumeric '\x7b' = false := by decide +kernel
  rw [step, ends, if_neg Bool.false_ne_true]
  rfl

theorem step_names :
    step meaning (.name quoted name.reverse) out '$' =
      some (.name quoted [], (meaning (String.ofList name)).toList.reverse ++ out) := by
  have ends : Alphanumeric.isAlphanumeric '$' = false := by decide +kernel
  have notOpen : ('$' = '\x7b' && name.reverse.isEmpty) = false := rfl
  rw [step, ends, if_neg Bool.false_ne_true, notOpen, if_neg Bool.false_ne_true, if_pos rfl]
  simp only [List.reverse_reverse]

theorem Spells.readFrom {v : List Char} (spells : Spells meaning quoted s v) (out : List Char) :
    readFrom meaning (.open quoted) out s = some (v.reverse ++ out) := by
  induction spells generalizing out with
  | done => rfl
  | dangling => rfl
  | ended c s space tail =>
      rw [EnvFile.readFrom, step_ended meaning space]
      exact (readFrom_closed_iff meaning).2 ⟨tail, rfl⟩
  | plain quoted c s v itself later ih =>
      rw [EnvFile.readFrom, step_plain meaning itself, Option.bind_some, ih, List.reverse_cons,
        List.append_assoc]
      rfl
  | quote quoted s v later ih => exact ih out
  | literal t s v inside later ih =>
      rw [EnvFile.readFrom]
      show EnvFile.readFrom meaning .literal out (t ++ '\'' :: s) = _
      rw [readFrom_literal meaning inside, ih, List.reverse_append, List.append_assoc]
  | escaped quoted c s v known later ih =>
      rw [EnvFile.readFrom]
      show EnvFile.readFrom meaning (.escape quoted) out (c :: s) = _
      rw [EnvFile.readFrom, step_escaped meaning known, Option.bind_some, ih, List.reverse_cons,
        List.append_assoc]
      rfl
  | newline quoted s v later ih =>
      rw [EnvFile.readFrom]
      show EnvFile.readFrom meaning (.open quoted) ('\n' :: out) s = _
      rw [ih, List.reverse_cons, List.append_assoc]
      rfl
  | braced quoted name s v inside later ih =>
      rw [EnvFile.readFrom, step_dollar, Option.bind_some, EnvFile.readFrom, step_brace,
        Option.bind_some, readFrom_braced meaning inside, ih, List.reverse_append,
        List.append_assoc]
      rfl
  | name quoted name c s v named ends later ih =>
      rw [readFrom_dollar meaning named, EnvFile.readFrom,
        step_name meaning ends.1 ends.2.1 ends.2.2, Option.bind_some, ih]
      simp
  | names quoted name s v named later ih =>
      rw [readFrom_dollar meaning named, EnvFile.readFrom, step_names meaning, Option.bind_some,
        List.reverse_append, List.append_assoc]
      exact ih _
  | lastName name named =>
      have whole : EnvFile.readFrom meaning (.open false) out ('$' :: (name ++ [])) = _ :=
        readFrom_dollar meaning named
      rw [List.append_nil] at whole
      rw [whole, EnvFile.readFrom, finish, List.reverse_reverse]

/-! ### What is read is allowed by the rules -/

/-- Whatever is read of a text is what the rules say. -/
def Explained (s : List Char) : Prop :=
  ∀ quoted out w, readFrom meaning (.open quoted) out s = some w →
    ∃ v, Spells meaning quoted s v ∧ w = v.reverse ++ out

section Explained

variable {meaning} {w : List Char}

theorem explained_nil : Explained meaning [] := by
  intro quoted out w read
  cases quoted with
  | true => contradiction
  | false => exact ⟨[], .done, (Option.some.inj read).symm⟩

/-- A piece that says `d`, and the text behind it. -/
theorem Explained.cons (later : Explained meaning s) {inner : Bool} {d : List Char}
    (read : readFrom meaning (.open inner) (d.reverse ++ out) s = some w)
    (rule : ∀ v, Spells meaning inner s v → Spells meaning quoted t (d ++ v)) :
    ∃ v, Spells meaning quoted t v ∧ w = v.reverse ++ out := by
  obtain ⟨v, spells, rfl⟩ := later inner _ w read
  exact ⟨d ++ v, rule v spells, by rw [List.reverse_append, List.append_assoc]⟩

theorem Explained.literal (shorter : ∀ t, t.length < s.length → Explained meaning t)
    (read : readFrom meaning .literal out s = some w) :
    ∃ v, Spells meaning false ('\'' :: s) v ∧ w = v.reverse ++ out := by
  by_cases closes : '\'' ∈ s
  · obtain ⟨t, rest, rfl, inside⟩ := List.eq_append_cons_of_mem closes
    rw [readFrom_literal meaning inside] at read
    refine (shorter rest ?_).cons read fun v spells => .literal t rest v inside spells
    simp only [List.length_append, List.length_cons]
    omega
  · rw [readFrom_literal_of_notMem meaning closes] at read
    contradiction

theorem Explained.escape (shorter : ∀ t, t.length < s.length → Explained meaning t)
    (read : readFrom meaning (.escape quoted) out s = some w) :
    ∃ v, Spells meaning quoted ('\\' :: s) v ∧ w = v.reverse ++ out := by
  cases s with
  | nil =>
      cases quoted with
      | true => contradiction
      | false => exact ⟨[], .dangling, (Option.some.inj read).symm⟩
  | cons c s =>
      rw [readFrom, step] at read
      split at read
      · next known =>
          exact (shorter s (Nat.lt_succ_self _)).cons (d := [c]) read fun v spells =>
            .escaped quoted c s v known spells
      · split at read
        · next newline =>
            subst newline
            exact (shorter s (Nat.lt_succ_self _)).cons (d := ['\n']) read fun v spells =>
              .newline quoted s v spells
        · contradiction

theorem Explained.braced (shorter : ∀ t, t.length < s.length → Explained meaning t)
    (read : readFrom meaning (.braced quoted []) out s = some w) :
    ∃ v, Spells meaning quoted ('$' :: '\x7b' :: s) v ∧ w = v.reverse ++ out := by
  by_cases closes : '\x7d' ∈ s
  · obtain ⟨name, rest, rfl, inside⟩ := List.eq_append_cons_of_mem closes
    rw [readFrom_braced meaning inside] at read
    refine (shorter rest ?_).cons read fun v spells => .braced quoted name rest v inside spells
    simp only [List.length_append, List.length_cons]
    omega
  · rw [readFrom_braced_of_notMem meaning closes] at read
    contradiction

theorem Explained.dollar (shorter : ∀ t, t.length ≤ s.length → Explained meaning t)
    (read : readFrom meaning (.name quoted []) out s = some w) :
    ∃ v, Spells meaning quoted ('$' :: s) v ∧ w = v.reverse ++ out := by
  obtain ⟨name, rest, rfl, named, stops⟩ := exists_span Alphanumeric.isAlphanumeric s
  rw [List.length_append] at shorter
  cases rest with
  | nil =>
      rw [readFrom_name meaning named, List.append_nil] at read
      rw [readFrom] at read
      cases quoted with
      | true => exact nomatch read
      | false =>
          rw [finish, List.reverse_reverse, Option.some_inj] at read
          rw [List.append_nil]
          exact ⟨_, .lastName name named, read.symm⟩
  | cons c rest =>
      rw [List.length_cons] at shorter
      have ends := stops c rfl
      by_cases opens : name = [] ∧ c = '\x7b'
      · obtain ⟨rfl, rfl⟩ := opens
        rw [List.nil_append, readFrom, step_brace, Option.bind_some] at read
        exact Explained.braced (fun t less => shorter t (by omega)) read
      · rw [readFrom_name meaning named, List.append_nil, readFrom] at read
        by_cases again : c = '$'
        · subst again
          rw [step_names meaning, Option.bind_some] at read
          exact (shorter ('$' :: rest) (Nat.le_add_left _ _)).cons read
            fun v (spells : Spells meaning quoted _ v) => .names quoted name rest v named spells
        · have open_ : name = [] → c ≠ '\x7b' := fun empty brace => opens ⟨empty, brace⟩
          rw [step_name meaning ends again open_, Option.bind_some] at read
          refine (shorter rest (by omega)).cons (d := (meaning (String.ofList name)).toList ++ [c])
            (by simpa using read) fun v spells => ?_
          rw [List.append_assoc]
          exact .name quoted name c rest v named ⟨ends, again, open_⟩ spells

theorem isPlain_or (quoted : Bool) (c : Char) :
    IsPlain quoted c ∨ c = '$' ∨ c = '"' ∨ c = '\\' ∨
      quoted = false ∧ (c = '\'' ∨ c = ' ' ∨ c = '\t') := by
  cases quoted with
  | true =>
      simp only [IsPlain, true_or, and_true]
      tauto
  | false =>
      simp only [IsPlain, Bool.false_eq_true, false_or, true_and]
      tauto

theorem explained (s : List Char) : Explained meaning s := by
  induction h : s.length using Nat.strong_induction_on generalizing s with
  | _ n ih =>
      subst h
      cases s with
      | nil => exact explained_nil
      | cons c s =>
          have shorter (t : List Char) (le : t.length ≤ s.length) : Explained meaning t :=
            ih t.length (Nat.lt_succ_of_le le) t rfl
          have less (t : List Char) (lt : t.length < s.length) : Explained meaning t :=
            shorter t (Nat.le_of_lt lt)
          have later : Explained meaning s := shorter s (Nat.le_refl _)
          intro quoted out w read
          rcases isPlain_or quoted c with itself | rfl | rfl | rfl | ⟨rfl, rfl | space⟩
          · rw [readFrom, step_plain meaning itself, Option.bind_some] at read
            exact later.cons (d := [c]) read fun v spells => .plain quoted c s v itself spells
          · rw [readFrom, step_dollar, Option.bind_some] at read
            exact Explained.dollar shorter read
          · have read : readFrom meaning (.open !quoted) out s = some w := read
            exact later.cons (d := []) read fun v spells => .quote quoted s v spells
          · exact Explained.escape less read
          · exact Explained.literal less read
          · rw [readFrom, step_ended meaning space, Option.bind_some] at read
            obtain ⟨tail, rfl⟩ := (readFrom_closed_iff meaning).1 read
            exact ⟨[], .ended c s space tail, rfl⟩

end Explained

/-- A value is read exactly where one is spelled. -/
theorem value?_eq_some_iff {text value : List Char} :
    value? meaning text = some (String.ofList value) ↔ Spells meaning false text value := by
  rw [value?_eq, Option.map_eq_some_iff]
  constructor
  · rintro ⟨out, read, same⟩
    obtain ⟨v, spells, rfl⟩ := explained text false [] out read
    rw [String.ofList_inj, List.append_nil, List.reverse_reverse] at same
    exact same ▸ spells
  · intro spells
    exact ⟨_, spells.readFrom meaning [], by rw [List.append_nil, List.reverse_reverse]⟩

end Value

end ChatHall.Config.EnvFile
