/-
# Where a setting comes from

The environment comes first, and behind it the assignments of the environment files in
the order in which they are met: a file is read up to its first bad line, and the first
file without one is the last that is read. Reading changes the environment, and later
lines look names up in what earlier ones have left there. That amounts to a rule without
any change: a name means its text in the environment, or else its first assignment. What
comes between is a NUL character in such an assignment, which no environment can hold.
-/

import ChatHall.Config.ServerSettings
import ChatHall.Proofs.Config.Line
import Mathlib.Data.List.Basic

namespace ChatHall

/-! ## Numbers -/

namespace Decimal

/-- Whether a text writes a number: one or more digits, maybe behind a plus sign. -/
def Writes (text : String) (n : Nat) : Prop :=
  ∃ digits : List Char, digits ≠ [] ∧ (∀ c ∈ digits, c.isDigit = true) ∧
    (text.toList = digits ∨ text.toList = '+' :: digits) ∧ Nat.ofDigitChars 10 digits 0 = n

theorem digitsFrom_eq_some_iff {value n : Nat} {s : List Char} :
    digitsFrom value s = some n ↔
      (∀ c ∈ s, c.isDigit = true) ∧ Nat.ofDigitChars 10 s value = n := by
  induction s generalizing value with
  | nil => simp [digitsFrom]
  | cons c s ih =>
      rw [digitsFrom, Nat.ofDigitChars_cons, List.forall_mem_cons, Nat.mul_comm 10]
      split_ifs with digit
      · rw [ih, and_iff_right digit]
      · simp [digit]

theorem digits?_eq_some_iff {n : Nat} {s : List Char} :
    digits? s = some n ↔
      s ≠ [] ∧ (∀ c ∈ s, c.isDigit = true) ∧ Nat.ofDigitChars 10 s 0 = n := by
  cases s with
  | nil => simp [digits?]
  | cons c s =>
      rw [digits?, digitsFrom_eq_some_iff, and_iff_right (List.cons_ne_nil c s)]
      exact List.cons_ne_nil c s

/-- What is read as a number within a limit is what writes one. -/
theorem natural?_eq_some_iff {limit n : Nat} {text : String} :
    natural? limit text = some n ↔ Writes text n ∧ n ≤ limit := by
  have plus : ¬ '+'.isDigit = true := by decide
  rw [natural?, Option.filter_eq_some_iff, decide_eq_true_iff]
  refine and_congr_left fun _ => ?_
  split
  · next s written =>
      rw [digits?_eq_some_iff]
      constructor
      · rintro ⟨some_digit, digits, value⟩
        exact ⟨s, some_digit, digits, .inr written, value⟩
      · rintro ⟨t, some_digit, digits, same | same, value⟩
        · rw [written] at same
          exact absurd (digits '+' (same ▸ List.mem_cons_self)) plus
        · rw [written] at same
          obtain ⟨-, rfl⟩ := List.cons.inj same
          exact ⟨some_digit, digits, value⟩
  · next unsigned =>
      rw [digits?_eq_some_iff]
      constructor
      · rintro ⟨some_digit, digits, value⟩
        exact ⟨text.toList, some_digit, digits, .inl rfl, value⟩
      · rintro ⟨t, some_digit, digits, rfl | same, value⟩
        · exact ⟨some_digit, digits, value⟩
        · exact absurd same (unsigned t)

end Decimal

namespace Config

open ChatHall.Text

/-! ## Assignments -/

/-- The value that a name is given first. -/
def firstOf (met : List (String × String)) (name : String) : Option String :=
  (met.find? fun a => a.1 = name).map (·.2)

theorem firstOf_append (met later : List (String × String)) (name : String) :
    firstOf (met ++ later) name = (firstOf met name).or (firstOf later name) := by
  rw [firstOf, List.find?_append, Option.map_or]
  rfl

theorem firstOf_singleton (name value other : String) :
    firstOf [(name, value)] other = if other = name then some value else none := by
  rw [firstOf, List.find?_singleton]
  by_cases same : other = name
  · rw [if_pos same, if_pos (decide_eq_true same.symm)]
    rfl
  · rw [if_neg same, if_neg (by simpa using Ne.symm same)]
    rfl

/-- An environment in which the names that it has no text for stand for their first
assignments. -/
def Environment.overlaid (env : Environment) (met : List (String × String)) : Environment :=
  ⟨met.foldr (fun a values =>
    if (env.get? a.1).isSome then values else values.insert a.1 (.text a.2)) env.values⟩

theorem Environment.get?_overlaid (env : Environment) (met : List (String × String))
    (name : String) : (env.overlaid met).get? name = (env.get? name).or (firstOf met name) := by
  induction met with
  | nil => exact Option.or_none.symm
  | cons a later ih =>
      have split : firstOf (a :: later) name =
          (if name = a.1 then some a.2 else none).or (firstOf later name) := by
        rw [← firstOf_singleton, ← firstOf_append]
        rfl
      rw [split]
      by_cases known : (env.get? a.1).isSome
      · have same : env.overlaid (a :: later) = env.overlaid later := by
          rw [overlaid, List.foldr_cons, if_pos known]
          rfl
        rw [same, ih]
        split_ifs with here
        · obtain ⟨text, found⟩ := Option.isSome_iff_exists.1 known
          rw [here, found]
          rfl
        · rfl
      · have set : env.overlaid (a :: later) =
            ⟨(env.overlaid later).values.insert a.1 (.text a.2)⟩ := by
          rw [overlaid, List.foldr_cons, if_neg known]
          rfl
        rw [set, get?, Table.find?_insert]
        split_ifs with here
        · rw [here, Option.not_isSome_iff_eq_none.1 known]
          rfl
        · exact ih

/-! ## Entries -/

/-- The front up to the first equals sign is one, whatever stands behind it. -/
theorem append_equals_inj {front name later value : List Char} (plain : '=' ∉ front)
    (unequal : '=' ∉ name) :
    name ++ '=' :: value = front ++ '=' :: later ↔ name = front ∧ value = later := by
  have inside {s : List Char} (none : '=' ∉ s) : ∀ c ∈ s, decide (c ≠ '=') = true :=
    fun c mem => decide_eq_true fun same => none (same ▸ mem)
  have stops {s : List Char} : ∀ c ∈ ('=' :: s).head?, decide (c ≠ '=') = false := by simp
  constructor
  · intro same
    have fronts := congrArg (List.takeWhile (· ≠ '=')) same
    have ends := congrArg (List.dropWhile (· ≠ '=')) same
    rw [EnvFile.takeWhile_append (inside unequal) stops,
      EnvFile.takeWhile_append (inside plain) stops] at fronts
    rw [EnvFile.dropWhile_append (inside unequal) stops,
      EnvFile.dropWhile_append (inside plain) stops] at ends
    exact ⟨fronts, (List.cons.inj ends).2⟩
  · rintro ⟨rfl, rfl⟩
    rfl

/-- An entry is written as a name without an equals sign, an equals sign and a value. What stands
behind a label is the rest of an entry that begins with the label and an equals sign. -/
theorem Environment.behind?_eq_some_iff {env : Environment} {label rest : String} :
    env.behind? label = some rest ↔ label ≠ "" ∧ '\x00' ∉ label.toList ∧
      ∃ name value, '=' ∉ name.toList ∧ env.get? name = some value ∧
        name.toList ++ '=' :: value.toList = label.toList ++ '=' :: rest.toList := by
  obtain ⟨front, s, whole, inside, stops⟩ := EnvFile.exists_span (· ≠ '=') label.toList
  have plain : '=' ∉ front := fun mem => by simpa using inside '=' mem
  by_cases refused : label.isEmpty ∨ '\x00' ∈ label.toList
  · rw [behind?, if_pos (by simpa using refused)]
    refine ⟨fun found => (nomatch found), fun ⟨more, noNul, _⟩ => ?_⟩
    exact absurd refused (not_or.2 ⟨by simpa using more, noNul⟩)
  · rw [behind?, if_neg (by simpa using refused), whole,
      EnvFile.takeWhile_append inside stops, EnvFile.dropWhile_append inside stops]
    obtain ⟨more, noNul⟩ := not_or.1 refused
    rw [← whole, and_iff_right (by simpa using more), and_iff_right noNul, whole]
    cases s with
    | nil =>
        rw [List.append_nil]
        constructor
        · intro found
          exact ⟨String.ofList front, rest, by rwa [String.toList_ofList], found,
            by rw [String.toList_ofList]⟩
        · rintro ⟨name, value, unequal, found, same⟩
          obtain ⟨rfl, ends⟩ := (append_equals_inj plain unequal).1 same
          rwa [String.ofList_toList, ← String.toList_inj.1 ends]
    | cons c start =>
        obtain rfl : c = '=' := by simpa using stops c rfl
        rw [List.append_assoc]
        constructor
        · intro read
          obtain ⟨value, found, read⟩ := Option.bind_eq_some_iff.1 read
          obtain ⟨t, behind, read⟩ := Option.bind_eq_some_iff.1 read
          rw [List.isPrefixOf?_eq_some_iff_append_eq] at behind
          obtain rfl := Option.some.inj read
          refine ⟨String.ofList front, value, by rwa [String.toList_ofList], found, ?_⟩
          rw [String.toList_ofList, ← behind, String.toList_ofList, List.append_assoc]
          rfl
        · rintro ⟨name, value, unequal, found, same⟩
          obtain ⟨rfl, ends⟩ := (append_equals_inj plain unequal).1 same
          have behind : (start ++ ['=']).isPrefixOf? value.toList = some rest.toList := by
            rw [List.isPrefixOf?_eq_some_iff_append_eq, ends, List.append_assoc]
            rfl
          rw [String.ofList_toList]
          refine Option.bind_eq_some_iff.2 ⟨value, found, ?_⟩
          exact Option.bind_eq_some_iff.2 ⟨_, behind, congrArg some String.ofList_toList⟩

/-! ## What is met -/

namespace EnvFile

/-- What a name in a value means behind the assignments `met`: what stands behind it in the
overlaid environment, else its value in the same file, where `earlier` are the assignments so
far, latest first, else nothing. -/
def sense (env : Environment) (met earlier : List (String × String)) (name : String) : String :=
  (((env.overlaid met).behind? name).or (firstOf earlier name)).getD ""

/-- What some lines assign, in order and up to the first bad one, and whether there is none. -/
inductive Yields (env : Environment) : (met earlier : List (String × String)) →
    (lines : List Bytes) → (here : List (String × String)) → (whole : Bool) → Prop
  | ended (met earlier : List (String × String)) : Yields env met earlier [] [] true
  | blank (met earlier here : List (String × String)) (l : Bytes) (rest : List Bytes) (whole : Bool)
      (kind : IsLine (sense env met earlier) l .blank)
      (later : Yields env met earlier rest here whole) :
      Yields env met earlier (l :: rest) here whole
  | assignment (met earlier here : List (String × String)) (l : Bytes) (rest : List Bytes)
      (whole : Bool) (name value : String)
      (kind : IsLine (sense env met earlier) l (.assignment name value))
      (later : Yields env (met ++ [(name, value)]) ((name, value) :: earlier) rest here whole) :
      Yields env met earlier (l :: rest) ((name, value) :: here) whole
  | bad (met earlier : List (String × String)) (l : Bytes) (rest : List Bytes)
      (kind : IsLine (sense env met earlier) l .bad) : Yields env met earlier (l :: rest) [] false

section Yields

variable {env : Environment} {met earlier here here' : List (String × String)}
variable {lines : List Bytes} {whole whole' : Bool}

theorem exists_yields (env : Environment) (met earlier : List (String × String))
    (lines : List Bytes) : ∃ here whole, Yields env met earlier lines here whole := by
  induction lines generalizing met earlier with
  | nil => exact ⟨[], true, .ended met earlier⟩
  | cons l rest ih =>
      have kind := said_eq_iff.1 (rfl : said (sense env met earlier) l = _)
      cases what : said (sense env met earlier) l with
      | blank =>
          obtain ⟨here, whole, later⟩ := ih met earlier
          exact ⟨here, whole, .blank met earlier here l rest whole (what ▸ kind) later⟩
      | assignment name value =>
          obtain ⟨here, whole, later⟩ := ih (met ++ [(name, value)]) ((name, value) :: earlier)
          exact ⟨_, whole,
            .assignment met earlier here l rest whole name value (what ▸ kind) later⟩
      | bad => exact ⟨[], false, .bad met earlier l rest (what ▸ kind)⟩

theorem Yields.unique (one : Yields env met earlier lines here whole)
    (other : Yields env met earlier lines here' whole') : here = here' ∧ whole = whole' := by
  induction one generalizing here' whole' with
  | ended met earlier =>
      cases other
      exact ⟨rfl, rfl⟩
  | blank met earlier here l rest whole kind later ih =>
      cases other with
      | blank _ _ _ _ _ _ kind' later' => exact ih later'
      | assignment _ _ _ _ _ _ name value kind' later' => cases kind.unique kind'
      | bad _ _ _ _ kind' => cases kind.unique kind'
  | assignment met earlier here l rest whole name value kind later ih =>
      cases other with
      | blank _ _ _ _ _ _ kind' later' => cases kind.unique kind'
      | assignment _ _ _ _ _ _ name value kind' later' =>
          cases kind.unique kind'
          obtain ⟨rfl, rfl⟩ := ih later'
          exact ⟨rfl, rfl⟩
      | bad _ _ _ _ kind' => cases kind.unique kind'
  | bad met earlier l rest kind =>
      cases other with
      | blank _ _ _ _ _ _ kind' later' => cases kind.unique kind'
      | assignment _ _ _ _ _ _ name value kind' later' => cases kind.unique kind'
      | bad _ _ _ _ kind' => exact ⟨rfl, rfl⟩

end Yields

end EnvFile

/-- What files assign, in order, up to the first one without a bad line. A path without a file
is passed over. -/
inductive FilesYield (env : Environment) (files : String → Option Bytes) :
    (met : List (String × String)) → (paths : List String) →
    (assigned : List (String × String)) → Prop
  | ended (met : List (String × String)) : FilesYield env files met [] []
  | missing (met assigned : List (String × String)) (path : String) (later : List String)
      (none : files path = none) (rest : FilesYield env files met later assigned) :
      FilesYield env files met (path :: later) assigned
  | whole (met here : List (String × String)) (path : String) (later : List String)
      (contents : Bytes) (lines : List Bytes) (there : files path = some contents)
      (divided : EnvFile.IsLines contents lines)
      (yields : EnvFile.Yields env met [] lines here true) :
      FilesYield env files met (path :: later) here
  | broken (met here assigned : List (String × String)) (path : String) (later : List String)
      (contents : Bytes) (lines : List Bytes) (there : files path = some contents)
      (divided : EnvFile.IsLines contents lines)
      (yields : EnvFile.Yields env met [] lines here false)
      (rest : FilesYield env files (met ++ here) later assigned) :
      FilesYield env files met (path :: later) (here ++ assigned)

section FilesYield

variable {env : Environment} {files : String → Option Bytes}
variable {met assigned other : List (String × String)} {paths : List String}

theorem exists_filesYield (env : Environment) (files : String → Option Bytes)
    (met : List (String × String)) (paths : List String) :
    ∃ assigned, FilesYield env files met paths assigned := by
  induction paths generalizing met with
  | nil => exact ⟨[], .ended met⟩
  | cons path later ih =>
      cases there : files path with
      | none =>
          obtain ⟨assigned, rest⟩ := ih met
          exact ⟨assigned, .missing met assigned path later there rest⟩
      | some contents =>
          obtain ⟨lines, divided⟩ := EnvFile.exists_isLines contents
          obtain ⟨here, whole, yields⟩ := EnvFile.exists_yields env met [] lines
          cases whole with
          | true => exact ⟨here, .whole met here path later contents lines there divided yields⟩
          | false =>
              obtain ⟨assigned, rest⟩ := ih (met ++ here)
              exact ⟨here ++ assigned,
                .broken met here assigned path later contents lines there divided yields rest⟩

theorem FilesYield.unique (one : FilesYield env files met paths assigned)
    (two : FilesYield env files met paths other) : assigned = other := by
  have same {contents contents' : Bytes} {path : String} {lines lines' : List Bytes}
      (there : files path = some contents) (there' : files path = some contents')
      (divided : EnvFile.IsLines contents lines) (divided' : EnvFile.IsLines contents' lines') :
      lines = lines' := by
    obtain rfl := Option.some.inj (there.symm.trans there')
    exact divided.lines_eq.symm.trans divided'.lines_eq
  induction one generalizing other with
  | ended met =>
      cases two
      rfl
  | missing met assigned path later none rest ih =>
      cases two with
      | missing _ _ _ _ _ rest' => exact ih rest'
      | whole _ _ _ _ _ _ there => cases none.symm.trans there
      | broken _ _ _ _ _ _ _ there => cases none.symm.trans there
  | whole met here path later contents lines there divided yields =>
      cases two with
      | missing _ _ _ _ none rest => cases none.symm.trans there
      | whole _ _ _ _ _ _ there' divided' yields' =>
          obtain rfl := same there there' divided divided'
          exact (yields.unique yields').1
      | broken _ _ _ _ _ _ _ there' divided' yields' rest =>
          obtain rfl := same there there' divided divided'
          cases (yields.unique yields').2
  | broken met here assigned path later contents lines there divided yields rest ih =>
      cases two with
      | missing _ _ _ _ none rest => cases none.symm.trans there
      | whole _ _ _ _ _ _ there' divided' yields' =>
          obtain rfl := same there there' divided divided'
          cases (yields.unique yields').2
      | broken _ _ _ _ _ _ _ there' divided' yields' rest' =>
          obtain rfl := same there there' divided divided'
          obtain rfl := (yields.unique yields').1
          rw [ih rest']

end FilesYield

/-- What a name means to a program that starts in an environment, if files assign this. -/
def meaning (env : Environment) (assigned : List (String × String)) (name : String) :
    Option String :=
  (env.get? name).or (firstOf assigned name)

/-! ## The environment while files are read -/

/-- A name that the environment has no text for, with a first assignment that cannot be set. -/
structure Bars (env : Environment) (met : List (String × String)) (name value : String) :
    Prop where
  missing : env.get? name = none
  first : firstOf met name = some value
  nul : '\x00' ∈ value.toList

/-- An environment as it has become by some assignments. -/
structure Shows (env : Environment) (met : List (String × String)) (now : Environment) :
    Prop where
  texts : ∀ name, now.get? name = meaning env met name
  free : ∀ name value, ¬ Bars env met name value

/-- What a panic among some assignments leaves behind. -/
structure Stuck (env : Environment) (met : List (String × String)) (now : Environment)
    (p : Panic) : Prop where
  kept : ∀ name text, env.get? name = some text → now.get? name = some text
  cause : ∃ name value, Bars env met name value ∧ p = Environment.refusal name value

section Reading

variable {env now after : Environment} {met later earlier here : List (String × String)}
variable {name value : String} {p : Panic}

theorem Bars.append (bars : Bars env met name value) (later : List (String × String)) :
    Bars env (met ++ later) name value where
  missing := bars.missing
  first := by
    rw [firstOf_append, bars.first]
    rfl
  nul := bars.nul

theorem not_bars (plain : ∀ a ∈ met, '\x00' ∉ a.2.toList) (name value : String) :
    ¬ Bars env met name value := by
  rintro ⟨-, first, nul⟩
  obtain ⟨a, found, rfl⟩ := Option.map_eq_some_iff.1 first
  exact plain a (List.mem_of_find?_eq_some found) nul

theorem Stuck.append (h : Stuck env met now p) (later : List (String × String)) :
    Stuck env (met ++ later) now p := by
  obtain ⟨name, value, bars, same⟩ := h.cause
  exact ⟨h.kept, name, value, bars.append later, same⟩

theorem Shows.kept (h : Shows env met now) (name text : String)
    (there : env.get? name = some text) : now.get? name = some text := by
  rw [h.texts, meaning, there]
  rfl

theorem Shows.setDefault (h : Shows env met now) (set : now.setDefault name value = .ok after) :
    Shows env (met ++ [(name, value)]) after where
  texts := by
    intro other
    rw [Environment.get?_of_setDefault set, meaning, firstOf_append, firstOf_singleton,
      ← Option.or_assoc]
    show _ = (meaning env met other).or _
    rw [← h.texts other]
    split_ifs with same
    · rw [same]
      cases now.get? name <;> rfl
    · exact Option.or_none.symm
  free := by
    rintro other v ⟨missing, first, nul⟩
    rw [firstOf_append, firstOf_singleton, Option.or_eq_some_iff] at first
    rcases first with first | ⟨none_met, first⟩
    · exact h.free other v ⟨missing, first, nul⟩
    · obtain ⟨rfl, same⟩ := Option.ite_none_right_eq_some.1 first
      obtain rfl := Option.some.inj same
      have unset : now.get? other = none := by
        rw [h.texts, meaning, missing, none_met]
        rfl
      rw [Environment.setDefault_eq_error_iff.2 ⟨unset, nul, rfl⟩] at set
      contradiction

theorem Shows.stuck (h : Shows env met now) (set : now.setDefault name value = .error p) :
    Stuck env (met ++ [(name, value)]) now p := by
  obtain ⟨unset, nul, rfl⟩ := Environment.setDefault_eq_error_iff.1 set
  rw [h.texts, meaning, Option.or_eq_none_iff] at unset
  refine ⟨h.kept, name, value, ⟨unset.1, ?_, nul⟩, rfl⟩
  rw [firstOf_append, unset.2, firstOf_singleton, if_pos rfl]
  rfl

/-- Names are looked up in texts alone. -/
theorem Shows.lookup_eq (h : Shows env met now) {values : Table String String}
    (known : ∀ name, values.find? name = firstOf earlier name) :
    EnvFile.lookup now values = EnvFile.sense env met earlier := by
  have texts : now.get? = (env.overlaid met).get? :=
    funext fun name => (h.texts name).trans (env.get?_overlaid met name).symm
  funext name
  rw [EnvFile.lookup, EnvFile.sense, Environment.behind?, Environment.behind?, texts, known name,
    Option.orElse_eq_or]

theorem EnvFile.loadLines_cons (now : Environment) (values : Table String String) (l : Bytes)
    (rest : List Bytes) : loadLines now values (l :: rest) =
      match said (lookup now values) l with
      | .blank => loadLines now values rest
      | .bad => (now, .badLine)
      | .assignment name value =>
        match now.setDefault name value with
        | .error p => (now, .panicked p)
        | .ok now => loadLines now (values.insert name value) rest := by
  rw [loadLines, said]
  cases Utf8.decode l <;> rfl

/-- What some lines leave behind, and how their reading ends. -/
inductive Leaves (env : Environment) (met : List (String × String)) (whole : Bool) :
    Environment × EnvFile.Ending → Prop
  | read (after : Environment) (shows : Shows env met after) :
      Leaves env met whole (after, if whole then .whole else .badLine)
  | stuck (after : Environment) (p : Panic) (stuck : Stuck env met after p) :
      Leaves env met whole (after, .panicked p)

/-- Lines leave the environment as their assignments say. -/
theorem Shows.loadLines {lines : List Bytes} {whole : Bool} (h : Shows env met now)
    {values : Table String String} (known : ∀ name, values.find? name = firstOf earlier name)
    (yields : EnvFile.Yields env met earlier lines here whole) :
    Leaves env (met ++ here) whole (EnvFile.loadLines now values lines) := by
  induction yields generalizing now values with
  | ended met earlier =>
      rw [List.append_nil]
      exact .read now h
  | blank met earlier here l rest whole kind later ih =>
      rw [EnvFile.loadLines_cons, h.lookup_eq known, EnvFile.said_eq_iff.2 kind]
      exact ih h known
  | bad met earlier l rest kind =>
      rw [EnvFile.loadLines_cons, h.lookup_eq known, EnvFile.said_eq_iff.2 kind, List.append_nil]
      exact .read now h
  | assignment met earlier here l rest whole name value kind later ih =>
      rw [EnvFile.loadLines_cons, h.lookup_eq known, EnvFile.said_eq_iff.2 kind,
        ← List.singleton_append, ← List.append_assoc]
      dsimp only
      cases set : now.setDefault name value with
      | error p => exact .stuck now p ((h.stuck set).append here)
      | ok after =>
          refine ih (h.setDefault set) fun other => ?_
          rw [Table.find?_insert, known other, ← List.singleton_append, firstOf_append,
            firstOf_singleton]
          split_ifs <;> rfl

theorem Shows.load {contents : Bytes} {lines : List Bytes} {whole : Bool} (h : Shows env met now)
    (divided : EnvFile.IsLines contents lines)
    (yields : EnvFile.Yields env met [] lines here whole) :
    Leaves env (met ++ here) whole (EnvFile.load now contents) := by
  rw [EnvFile.load, divided.lines_eq]
  exact h.loadLines (fun name => rfl) yields

/-- What files leave behind. -/
inductive FilesLeave (env : Environment) (met : List (String × String)) :
    Environment × Except Panic Log.Entry → Prop
  | read (after : Environment) (entry : Log.Entry) (shows : Shows env met after) :
      FilesLeave env met (after, .ok entry)
  | stuck (after : Environment) (p : Panic) (stuck : Stuck env met after p) :
      FilesLeave env met (after, .error p)

/-- Files leave the environment as their assignments say. -/
theorem Shows.loadFiles {files : String → Option Bytes} {paths : List String}
    {assigned : List (String × String)} (h : Shows env met now)
    (yields : FilesYield env files met paths assigned) :
    FilesLeave env (met ++ assigned) (ServerSettings.loadFiles now files paths) := by
  induction yields generalizing now with
  | ended met =>
      rw [List.append_nil]
      exact .read now _ h
  | missing met assigned path later none rest ih =>
      rw [ServerSettings.loadFiles, none]
      exact ih h
  | whole met here path later contents lines there divided yields =>
      have leaves := h.load divided yields
      rw [ServerSettings.loadFiles, there]
      dsimp only
      generalize EnvFile.load now contents = left at leaves
      cases leaves with
      | read after shows => exact .read after _ shows
      | stuck after p stuck => exact .stuck after p stuck
  | broken met here assigned path later contents lines there divided yields rest ih =>
      have leaves := h.load divided yields
      rw [ServerSettings.loadFiles, there, ← List.append_assoc]
      dsimp only
      generalize EnvFile.load now contents = left at leaves
      cases leaves with
      | read after shows => exact ih shows
      | stuck after p stuck => exact .stuck after p (stuck.append assigned)

end Reading

/-! ## The settings -/

/-- What a value says about a numeric setting: the number that it writes, if that is below the
bound, and the default if it does not write one or there is no value. -/
structure Sets (value : Option String) (bound fallback n : Nat) : Prop where
  number : ∀ text m, value = some text → Decimal.Writes text m → m < bound → n = m
  fallback : (∀ text m, value = some text → Decimal.Writes text m → bound ≤ m) → n = fallback

theorem sets_number (env : Environment) (name : String) (limit fallback : Nat) :
    Sets (env.get? name) (limit + 1) fallback
      (ServerSettings.number env name limit fallback).1 := by
  rw [ServerSettings.number]
  cases env.get? name with
  | none => exact ⟨fun _ _ there => (nomatch there), fun _ => rfl⟩
  | some text =>
      dsimp only
      cases read : Decimal.natural? limit text with
      | none =>
          refine ⟨fun same m there writes within => ?_, fun _ => rfl⟩
          obtain rfl := Option.some.inj there
          rw [Decimal.natural?_eq_some_iff.2 ⟨writes, Nat.le_of_lt_succ within⟩] at read
          contradiction
      | some n =>
          obtain ⟨writes, within⟩ := Decimal.natural?_eq_some_iff.1 read
          refine ⟨fun same m there other inside => ?_, fun beyond => ?_⟩
          · obtain rfl := Option.some.inj there
            rw [Decimal.natural?_eq_some_iff.2 ⟨other, Nat.le_of_lt_succ inside⟩] at read
            exact (Option.some.inj read).symm
          · exact absurd (beyond text n rfl writes) (Nat.not_le.2 (Nat.lt_succ_of_le within))

theorem number_le {limit fallback : Nat} (within : fallback ≤ limit) (env : Environment)
    (name : String) : (ServerSettings.number env name limit fallback).1 ≤ limit := by
  rw [ServerSettings.number]
  cases env.get? name with
  | none => exact within
  | some text =>
      dsimp only
      cases read : Decimal.natural? limit text with
      | none => exact within
      | some n => exact (Decimal.natural?_eq_some_iff.1 read).2

/-- So it is with a setting of two bytes. -/
theorem sets_number16 (env : Environment) (name : String) (fallback : UInt16) :
    Sets (env.get? name) UInt16.size fallback.toNat
      (UInt16.ofNat
        (ServerSettings.number env name ServerSettings.limit16 fallback.toNat).1).toNat := by
  have small : fallback.toNat ≤ ServerSettings.limit16 := Nat.le_sub_one_of_lt fallback.toNat_lt
  have fits : ServerSettings.limit16 < 2 ^ 16 := by decide
  rw [UInt16.toNat_ofNat_of_lt' (Nat.lt_of_le_of_lt (number_le small env name) fits)]
  exact sets_number env name ServerSettings.limit16 fallback.toNat

/-- The settings that come of what the names mean. -/
structure ServerSettings.Follows (meaning : String → Option String) (s : ServerSettings) :
    Prop where
  host : s.host = (meaning "tcp_host").getD (ServerSettings.host {})
  defaultRoom : s.defaultRoom = (meaning "default_room").getD (ServerSettings.defaultRoom {})
  port : Sets (meaning "tcp_port") UInt16.size (ServerSettings.port {}).toNat s.port.toNat
  recvBufferSize : Sets (meaning "recv_buffer_size") UInt64.size (ServerSettings.recvBufferSize {})
    s.recvBufferSize
  sendChunkSize : Sets (meaning "send_chunk_size") UInt64.size (ServerSettings.sendChunkSize {})
    s.sendChunkSize
  maxPacketId : Sets (meaning "max_packet_id") UInt16.size (ServerSettings.maxPacketId {}).toNat
    s.maxPacketId.toNat
  statsIntervalSecs : Sets (meaning "stats_interval_secs") UInt64.size
    (ServerSettings.statsIntervalSecs {}) s.statsIntervalSecs

theorem follows_ofVariables (env : Environment) :
    (ServerSettings.ofVariables env).1.Follows env.get? where
  host := rfl
  defaultRoom := rfl
  port := sets_number16 env "tcp_port" _
  recvBufferSize := sets_number env "recv_buffer_size" _ _
  sendChunkSize := sets_number env "send_chunk_size" _ _
  maxPacketId := sets_number16 env "max_packet_id" _
  statsIntervalSecs := sets_number env "stats_interval_secs" _ _

/-- What is promised of the settings that are found in an environment, if files assign this. -/
structure ServerSettings.Found.Obeys (env : Environment) (assigned : List (String × String))
    (found : Found) : Prop where
  /-- A text that is there stays, and no file has anything to say about it. -/
  kept : ∀ name text, env.get? name = some text →
    meaning env assigned name = some text ∧ found.environment.get? name = some text
  follows : (∀ name value, ¬ Bars env assigned name value) →
    (∀ name, found.environment.get? name = meaning env assigned name) ∧
      ∃ settings, found.result = .ok settings ∧ settings.Follows (meaning env assigned)
  /-- Otherwise there are no settings, because of one such value. -/
  refused : (∃ name value, Bars env assigned name value) →
    ∃ name value, Bars env assigned name value ∧
      found.result = .error (Environment.refusal name value)

theorem FilesYield.obeys {env : Environment} {files : String → Option Bytes}
    {assigned : List (String × String)}
    (yields : FilesYield env files [] ServerSettings.filePaths assigned) :
    (ServerSettings.find env files).Obeys env assigned := by
  have start : Shows env [] env := ⟨fun name => Option.or_none.symm, fun name value bars =>
    nomatch bars.first⟩
  have own (name text : String) (there : env.get? name = some text) :
      meaning env assigned name = some text := by
    rw [meaning, there]
    rfl
  have leaves : FilesLeave env assigned
    (ServerSettings.loadFiles env files ServerSettings.filePaths) := start.loadFiles yields
  rw [ServerSettings.find]
  generalize ServerSettings.loadFiles env files ServerSettings.filePaths = loaded at leaves
  cases leaves with
  | stuck after p stuck =>
      obtain ⟨name, value, bars, rfl⟩ := stuck.cause
      exact {
        kept := fun name text there => ⟨own name text there, stuck.kept name text there⟩
        follows := fun free => absurd bars (free name value)
        refused := fun _ => ⟨name, value, bars, rfl⟩ }
  | read after entry shows =>
      have same : after.get? = meaning env assigned := funext shows.texts
      exact {
        kept := fun name text there => ⟨own name text there, shows.kept name text there⟩
        follows := fun _ => ⟨shows.texts, _, rfl, same ▸ follows_ofVariables after⟩
        refused := fun ⟨name, value, bars⟩ => absurd bars (shows.free name value) }

/-- Whatever the environment and the files hold, the files assign one thing, and each setting
comes from where it should. -/
theorem obeys_find (env : Environment) (files : String → Option Bytes) :
    ∃ assigned,
      (∀ other, FilesYield env files [] ["../.env", ".env", "../../.env"] other ↔
        other = assigned) ∧
      (ServerSettings.find env files).Obeys env assigned := by
  obtain ⟨assigned, yields⟩ := exists_filesYield env files [] ServerSettings.filePaths
  have only (other : List (String × String)) :
      FilesYield env files [] ServerSettings.filePaths other ↔ other = assigned :=
    ⟨fun also => also.unique yields, fun same => same ▸ yields⟩
  exact ⟨assigned, only, yields.obeys⟩

/-! ### Two files -/

def withPort : Environment := ⟨({} : Table String Variable).insert "tcp_port" (.text "5000")⟩

/-- The first file breaks off behind a host and a port, the second one has another host. -/
def twoFiles (path : String) : Option Bytes :=
  if path = "../.env" then some (Utf8.encode "tcp_host=first\ntcp_port=6000\n?\n")
  else if path = ".env" then
    some (Utf8.encode "export tcp_host=\"second\"\r\nmax_packet_id = +7 # few\n")
  else none

def assignedByTwo : List (String × String) :=
  [("tcp_host", "first"), ("tcp_port", "6000"), ("tcp_host", "second"), ("max_packet_id", "+7")]

theorem filesYield_twoFiles :
    FilesYield withPort twoFiles [] ["../.env", ".env", "../../.env"] assignedByTwo := by
  refine .broken [] [("tcp_host", "first"), ("tcp_port", "6000")]
    [("tcp_host", "second"), ("max_packet_id", "+7")] _ _ _
    (["tcp_host=first", "tcp_port=6000", "?"].map Utf8.encode) rfl
    (EnvFile.lines_eq_iff.1 (by decide +kernel)) ?_ (.whole _ _ _ _ _
      (["export tcp_host=\"second\"", "max_packet_id = +7 # few"].map Utf8.encode) rfl
      (EnvFile.lines_eq_iff.1 (by decide +kernel)) ?_)
  · refine .assignment _ _ _ _ _ _ _ _ (EnvFile.said_eq_iff.1 (by decide +kernel)) ?_
    refine .assignment _ _ _ _ _ _ _ _ (EnvFile.said_eq_iff.1 (by decide +kernel)) ?_
    exact .bad _ _ _ _ (EnvFile.said_eq_iff.1 (by decide +kernel))
  · refine .assignment _ _ _ _ _ _ _ _ (EnvFile.said_eq_iff.1 (by decide +kernel)) ?_
    refine .assignment _ _ _ _ _ _ _ _ (EnvFile.said_eq_iff.1 (by decide +kernel)) ?_
    exact .ended _ _

/-- The host of the first file stays, and so does the port of the environment. -/
theorem obeys_find_twoFiles : ∃ settings,
    (ServerSettings.find withPort twoFiles).result = .ok settings ∧ settings.host = "first" ∧
      settings.port = 5000 ∧ settings.maxPacketId = 7 ∧ settings.defaultRoom = "lobby" := by
  obtain ⟨assigned, only, obeys⟩ := obeys_find withPort twoFiles
  obtain rfl := (only _).1 filesYield_twoFiles
  obtain ⟨-, settings, found, follows⟩ := obeys.follows (not_bars (by decide +kernel))
  refine ⟨settings, found, follows.host, ?_, ?_, follows.defaultRoom⟩
  · have port := follows.port.number "5000" 5000 (by decide +kernel)
      ⟨"5000".toList, by decide, List.all_eq_true.1 (by decide), .inl rfl, by decide⟩ (by decide)
    exact UInt16.toNat_inj.1 port
  · have most := follows.maxPacketId.number "+7" 7 (by decide +kernel)
      ⟨['7'], by decide, List.all_eq_true.1 (by decide), .inr rfl, by decide⟩ (by decide)
    exact UInt16.toNat_inj.1 most

/-! ### A NUL character -/

def nulFile (path : String) : Option Bytes :=
  if path = ".env" then some (Utf8.encode "tcp_host=a\x00b") else none

/-- The host has a value there, and still no settings are found. -/
theorem find_nulFile :
    FilesYield {} nulFile [] ["../.env", ".env", "../../.env"] [("tcp_host", "a\x00b")] ∧
      meaning {} [("tcp_host", "a\x00b")] "tcp_host" = some "a\x00b" ∧
      (ServerSettings.find {} nulFile).result =
        .error (Environment.refusal "tcp_host" "a\x00b") := by
  have yields : FilesYield {} nulFile [] ["../.env", ".env", "../../.env"]
      [("tcp_host", "a\x00b")] := by
    refine .missing [] _ _ _ rfl (.whole [] _ _ _ _ [Utf8.encode "tcp_host=a\x00b"] rfl
      (EnvFile.lines_eq_iff.1 (by decide +kernel)) ?_)
    refine .assignment _ _ _ _ _ _ _ _ (EnvFile.said_eq_iff.1 (by decide +kernel)) ?_
    exact .ended _ _
  refine ⟨yields, by decide +kernel, ?_⟩
  obtain ⟨name, value, bars, refused⟩ :=
    yields.obeys.refused ⟨"tcp_host", "a\x00b", by decide +kernel, by decide +kernel, by decide⟩
  have first := bars.first
  rw [firstOf_singleton, Option.ite_none_right_eq_some] at first
  obtain ⟨rfl, same⟩ := first
  rw [refused, Option.some.inj same]

end Config

end ChatHall
