/-
# Reading the lines of an environment file

The blanks around the parts of a line are taken off by readers of maximal fronts, so a
line that is put together by the rules is taken apart in the same way, and a line that
is taken apart was put together so. A line is bad if no rule allows it.
-/

import ChatHall.Proofs.Config.Grammar
import ChatHall.Proofs.Text.Utf8

namespace ChatHall.Config.EnvFile

open ChatHall.Text

/-! ## Blanks -/

section Blanks

variable {front s back rest : List Char}

/-- The blanks around a text are taken away. -/
theorem skipBlanks_trimEnd (before : IsBlanks front) (behind : IsBlanks back)
    (first : ∀ c ∈ s.head?, isBlank c = false) (last : ∀ c ∈ s.getLast?, isBlank c = false) :
    skipBlanks (trimEnd (front ++ s ++ back)) = s := by
  have behind : ∀ c ∈ back.reverse, isBlank c = true :=
    fun c mem => behind c (List.mem_reverse.1 mem)
  rw [skipBlanks, trimEnd, List.reverse_append, List.reverse_append]
  cases s with
  | nil =>
      have all : (back.reverse ++ front.reverse).dropWhile isBlank = [] := by
        rw [List.dropWhile_eq_nil_iff]
        intro c mem
        exact (List.mem_append.1 mem).elim (behind c) fun mem => before c (List.mem_reverse.1 mem)
      rw [List.reverse_nil, List.nil_append, all]
      rfl
  | cons c s =>
      have stops : ∀ d ∈ ((c :: s).reverse ++ front.reverse).head?, isBlank d = false := by
        intro d mem
        rw [List.head?_append, List.head?_reverse] at mem
        exact last d (by simpa [List.getLast?_cons] using mem)
      rw [dropWhile_append behind stops, List.reverse_append, List.reverse_reverse,
        List.reverse_reverse, dropWhile_append before first]

theorem exists_trim (text : List Char) : ∃ front s back, text = front ++ s ++ back ∧
    IsBlanks front ∧ IsBlanks back ∧ (∀ c ∈ s.head?, isBlank c = false) ∧
    ∀ c ∈ s.getLast?, isBlank c = false := by
  obtain ⟨back, most, same, behind, last⟩ := exists_span isBlank text.reverse
  obtain ⟨front, s, divided, before, first⟩ := exists_span isBlank most.reverse
  refine ⟨front, s, back.reverse, ?_, before, fun c mem => behind c (List.mem_reverse.1 mem), first,
    fun c mem => last c ?_⟩
  · rw [← divided, ← List.reverse_append, ← same, List.reverse_reverse]
  · rw [← List.getLast?_reverse, divided, List.getLast?_append, mem]
    rfl

theorem skipBlanks_append (blanks : IsBlanks front) (stops : ∀ c ∈ rest.head?, isBlank c = false) :
    skipBlanks (front ++ rest) = rest := dropWhile_append blanks stops

theorem exists_append_skipBlanks (s : List Char) : ∃ gap, s = gap ++ skipBlanks s ∧
    IsBlanks gap ∧ ∀ c ∈ (skipBlanks s).head?, isBlank c = false := by
  obtain ⟨gap, rest, rfl, blanks, stops⟩ := exists_span isBlank s
  rw [skipBlanks_append blanks stops]
  exact ⟨gap, rfl, blanks, stops⟩

theorem isInner_of_isBlank {c : Char} (blank : isBlank c = true) : isInner c = false := by
  by_contra inner
  rw [isInner] at inner
  delta Char.isAlphanum Char.isAlpha Char.isUpper Char.isLower Char.isDigit at inner
  simp only [Bool.not_eq_false, Bool.or_eq_true, Bool.and_eq_true, decide_eq_true_eq, ge_iff_le,
    UInt32.le_iff_toNat_le] at inner
  simp only [isBlank, Bool.or_eq_true, Bool.and_eq_true, decide_eq_true_eq, beq_iff_eq] at blank
  rcases inner with (inner | rfl) | rfl
  · simp at inner
    omega
  · simp at blank
  · simp at blank

end Blanks

/-! ## The name and what is behind it -/

section Sides

variable {s rest shown : List Char} {name : String}

theorem key?_append {k : List Char} (key : IsKey k) (stops : ∀ c ∈ rest.head?, isInner c = false) :
    key? (k ++ rest) = some (String.ofList k, rest) := by
  obtain ⟨c, k, rfl, first, inner⟩ := key
  rw [List.cons_append, key?, if_pos first]
  show some (String.ofList (c :: (k ++ rest).takeWhile isInner), (k ++ rest).dropWhile isInner) = _
  rw [takeWhile_append inner stops, dropWhile_append inner stops]

theorem exists_of_key? (read : key? s = some (name, rest)) :
    s = name.toList ++ rest ∧ IsKey name.toList ∧ ∀ c ∈ rest.head?, isInner c = false := by
  cases s with
  | nil => contradiction
  | cons c s =>
      rw [key?, Option.ite_none_right_eq_some] at read
      obtain ⟨first, read⟩ := read
      obtain ⟨k, after, rfl, inner, stops⟩ := exists_span isInner s
      have same : (String.ofList (c :: (k ++ after).takeWhile isInner),
          (k ++ after).dropWhile isInner) = (name, rest) := Option.some.inj read
      rw [takeWhile_append inner stops, dropWhile_append inner stops] at same
      obtain ⟨rfl, rfl⟩ := Prod.mk.inj same
      rw [String.toList_ofList]
      exact ⟨rfl, ⟨c, k, rfl, first, inner⟩, stops⟩

theorem isKey_export : IsKey "export".toList :=
  ⟨'e', "xport".toList, by decide +kernel, by decide, List.all_eq_true.1 (by decide +kernel)⟩

/-- A name ends at a blank, and at the equals sign. -/
theorem not_isInner_of_gap {gap : List Char} (blanks : IsBlanks gap) :
    ∀ c ∈ (gap ++ '=' :: s).head?, isInner c = false := by
  intro c first
  cases gap with
  | nil =>
      obtain rfl := Option.some.inj first
      decide
  | cons d gap =>
      obtain rfl := Option.some.inj first
      exact isInner_of_isBlank (blanks d List.mem_cons_self)

theorem skipBlanks_gap {gap : List Char} (blanks : IsBlanks gap) :
    skipBlanks (gap ++ '=' :: s) = '=' :: s :=
  skipBlanks_append blanks fun c first => Option.some.inj first ▸ by decide

/-- A name does not begin like what is behind it. -/
theorem IsKey.head_of_append (key : IsKey name.toList) : ∃ c t, name.toList ++ s = c :: t ∧
    c ≠ '=' ∧ isInner c = true ∧ isBlank c = false := by
  obtain ⟨c, k, same, first, -⟩ := key
  have inner : isInner c = true := by
    rw [Bool.or_eq_true] at first
    rcases first with letter | underscore
    · simp [isInner, Char.isAlphanum, letter]
    · simp [isInner, of_decide_eq_true underscore]
  refine ⟨c, k ++ s, by rw [same, List.cons_append], ?_, inner, ?_⟩
  · rintro rfl
    exact absurd first (by decide)
  · by_contra blank
    rw [isInner_of_isBlank (eq_true_of_ne_false blank)] at inner
    contradiction

theorem exists_of_sides? (read : sides? s = some (name, shown)) : ∃ lead gap after,
    s = lead ++ (name.toList ++ (gap ++ '=' :: (after ++ shown))) ∧ IsLead lead ∧
      IsKey name.toList ∧ IsBlanks gap ∧ IsBlanks after ∧ ∀ c ∈ shown.head?, isBlank c = false := by
  rw [sides?] at read
  obtain ⟨⟨first, r⟩, keyed, found⟩ := Option.bind_eq_some_iff.1 read
  clear read
  obtain ⟨rfl, key, stops⟩ := exists_of_key? keyed
  obtain ⟨gap, divided, blanks, ends⟩ := exists_append_skipBlanks r
  dsimp only at found
  split at found
  · next t equals =>
      obtain ⟨after, behind, all, start⟩ := exists_append_skipBlanks t
      obtain ⟨rfl, rfl⟩ := Prod.mk.inj (Option.some.inj found)
      refine ⟨[], gap, after, ?_, .inl rfl, key, blanks, all, start⟩
      rw [divided, equals, ← behind]
      rfl
  · next t same =>
      obtain ⟨⟨second, r'⟩, keyed', found⟩ := Option.bind_eq_some_iff.1 found
      obtain ⟨named, key', stops'⟩ := exists_of_key? keyed'
      obtain ⟨gap', divided', blanks', -⟩ := exists_append_skipBlanks r'
      dsimp only at found
      split at found
      · next u equals =>
          obtain ⟨after, behind, all, start⟩ := exists_append_skipBlanks u
          obtain ⟨rfl, rfl⟩ := Prod.mk.inj (Option.some.inj found)
          have some_blank : gap ≠ [] := by
            rintro rfl
            obtain ⟨c, t, shape, -, inner, -⟩ := key'.head_of_append (s := r')
            rw [divided, List.nil_append, named, shape] at stops
            rw [stops c rfl] at inner
            contradiction
          refine ⟨"export".toList ++ gap, gap', after, ?_, .inr ⟨gap, rfl, some_blank, blanks⟩,
            key', blanks', all, start⟩
          rw [← behind, ← equals, ← divided', ← named, List.append_assoc, ← divided]
      · contradiction
  · contradiction

theorem sides?_append {lead gap after : List Char} (leads : IsLead lead) (key : IsKey name.toList)
    (blanks : IsBlanks gap) (behind : IsBlanks after)
    (first : ∀ c ∈ shown.head?, isBlank c = false) :
    sides? (lead ++ (name.toList ++ (gap ++ '=' :: (after ++ shown)))) = some (name, shown) := by
  have named := key?_append key (not_isInner_of_gap (s := after ++ shown) blanks)
  rw [String.ofList_toList] at named
  have ends : skipBlanks (after ++ shown) = shown := skipBlanks_append behind first
  rcases leads with rfl | ⟨between, rfl, some_blank, between_blank⟩
  · rw [List.nil_append, sides?, named]
    simp only [Option.bind_eq_bind, Option.bind_some]
    rw [skipBlanks_gap blanks]
    show some (name, skipBlanks (after ++ shown)) = _
    rw [ends]
  · obtain ⟨c, t, shape, other, -, visible⟩ :=
      key.head_of_append (s := gap ++ '=' :: (after ++ shown))
    have exported : key? ("export".toList ++ (between ++ c :: t)) =
        some ("export", between ++ c :: t) := by
      refine key?_append isKey_export ?_
      obtain ⟨d, between, rfl⟩ := List.exists_cons_of_ne_nil some_blank
      intro e first
      obtain rfl := Option.some.inj first
      exact isInner_of_isBlank (between_blank d List.mem_cons_self)
    have skipped : skipBlanks (between ++ c :: t) = c :: t :=
      skipBlanks_append between_blank fun d first => Option.some.inj first ▸ visible
    rw [List.append_assoc, shape, sides?, exported]
    simp only [Option.bind_eq_bind, Option.bind_some]
    rw [skipped]
    split
    · next same => exact absurd (List.cons.inj same).1 other
    · rw [← shape, named]
      simp only [Option.bind_some]
      rw [skipBlanks_gap blanks]
      show some (name, skipBlanks (after ++ shown)) = _
      rw [ends]
    · next exported _ => exact absurd rfl exported

end Sides

/-! ## The whole line -/

section Line

variable {meaning : String → String} {text : String} {name value : String}

theorem line_eq_blank_iff : line meaning text = .blank ↔ IsRemark text.toList := by
  obtain ⟨front, s, back, whole, before, behind, first, last⟩ := exists_trim text.toList
  have blank : line meaning text = .blank ↔ s = [] ∨ s.head? = some '#' := by
    rw [line, whole, skipBlanks_trimEnd before behind first last]
    by_cases empty : s = [] ∨ s.head? = some '#'
    · rw [if_pos (by simpa using empty), eq_self, true_iff]
      exact empty
    · rw [if_neg (by simpa using empty)]
      refine ⟨fun same => ?_, fun same => absurd same empty⟩
      split at same
      · contradiction
      · split at same
        · contradiction
        · split at same <;> contradiction
  rw [blank, whole]
  constructor
  · rintro (rfl | hash)
    · refine ⟨front ++ back, [], by simp, fun c mem => ?_, .inl rfl⟩
      exact (List.mem_append.1 mem).elim (before c) (behind c)
    · refine ⟨front, s ++ back, List.append_assoc .., before, .inr ?_⟩
      rw [List.head?_append, hash]
      rfl
  · rintro ⟨gap, remark, same, blanks, ends⟩
    cases s with
    | nil => exact .inl rfl
    | cons c s =>
        have shown : skipBlanks (front ++ c :: s ++ back) = c :: s ++ back := by
          rw [List.append_assoc]
          exact skipBlanks_append before fun d mem => first d mem
        rcases ends with rfl | hash
        · have visible := first c rfl
          rw [blanks c (by rw [← List.append_nil gap, ← same]; simp)] at visible
          contradiction
        · have stops : ∀ d ∈ remark.head?, isBlank d = false := by
            intro d mem
            rw [hash] at mem
            exact Option.some.inj mem ▸ by decide
          rw [same, skipBlanks_append blanks stops] at shown
          rw [shown] at hash
          exact .inr hash

/-- Whatever stands in front of an equals sign begins with what may stand in a name. -/
theorem IsLead.head_of_append {lead s : List Char} (leads : IsLead lead) (key : IsKey name.toList) :
    ∃ c t, lead ++ (name.toList ++ s) = c :: t ∧ isInner c = true ∧ isBlank c = false := by
  rcases leads with rfl | ⟨gap, rfl, -, -⟩
  · obtain ⟨c, t, shape, -, inner, visible⟩ := key.head_of_append (s := s)
    exact ⟨c, t, shape, inner, visible⟩
  · exact ⟨'e', "xport".toList ++ gap ++ (name.toList ++ s), by simp, by decide, by decide⟩

/-- The last character of an assignment is that of its value's text, or else the equals sign. -/
theorem last_iff {lead key gap s : List Char} :
    (∀ c ∈ (lead ++ (key ++ (gap ++ '=' :: s))).getLast?, isBlank c = false) ↔
      ∀ c ∈ s.getLast?, isBlank c = false := by
  have final : (lead ++ (key ++ (gap ++ '=' :: s))).getLast? = some (s.getLast?.getD '=') := by
    simp [List.getLast?_append, List.getLast?_cons]
  rw [final]
  cases s.getLast? with
  | none =>
      refine iff_of_true (fun c mem => ?_) fun c mem => nomatch mem
      exact Option.some.inj mem ▸ by decide
  | some d => exact Iff.rfl

theorem getLast?_append_of_ne_nil {front s : List Char} (more : s ≠ []) :
    (front ++ s).getLast? = s.getLast? := by
  rw [List.getLast?_append, List.getLast?_eq_some_getLast more]
  rfl

theorem line_of_parts {front lead gap after shown back : List Char}
    (whole : text.toList =
      front ++ (lead ++ (name.toList ++ (gap ++ '=' :: (after ++ shown)))) ++ back)
    (before : IsBlanks front) (behind : IsBlanks back) (leads : IsLead lead)
    (key : IsKey name.toList) (blanks : IsBlanks gap) (between : IsBlanks after)
    (first : ∀ c ∈ shown.head?, isBlank c = false)
    (last : ∀ c ∈ (after ++ shown).getLast?, isBlank c = false)
    (gives : Gives meaning shown value) : line meaning text = .assignment name value := by
  have parts := sides?_append leads key blanks between first
  obtain ⟨c, t, shape, inner, visible⟩ :=
    leads.head_of_append key (s := gap ++ '=' :: (after ++ shown))
  have trimmed : skipBlanks (trimEnd text.toList) = c :: t := by
    rw [whole, ← shape]
    refine skipBlanks_trimEnd before behind ?_ ?_
    · rw [shape]
      exact fun d mem => Option.some.inj mem ▸ visible
    · exact last_iff.2 last
  have noHash : c ≠ '#' := by
    rintro rfl
    exact absurd inner (by decide)
  rw [shape] at parts
  rw [line, trimmed, if_neg (by simpa using noHash), parts]
  cases gives with
  | nothing => rfl
  | remark s => rfl
  | spelled c s value other spells =>
      have value? := (value?_eq_some_iff meaning).2 spells
      rw [String.ofList_toList] at value?
      simp only [List.isEmpty_cons, List.head?_cons, Option.some.injEq, other, decide_false,
        Bool.or_false, Bool.false_eq_true, if_false, value?]

theorem line_eq_assignment_iff :
    line meaning text = .assignment name value ↔ Assigns meaning text.toList name value := by
  constructor
  · intro read
    obtain ⟨front, s, back, whole, before, behind, first, last⟩ := exists_trim text.toList
    rw [line, whole, skipBlanks_trimEnd before behind first last] at read
    split at read
    · contradiction
    · split at read
      · contradiction
      · next named shown parts =>
          obtain ⟨lead, gap, after, rfl, leads, key, blanks, between, start⟩ :=
            exists_of_sides? parts
          have ends (c : Char) (mem : c ∈ shown.getLast?) : isBlank c = false := by
            have more : shown ≠ [] := fun empty => by simp [empty] at mem
            refine last_iff.1 last c ?_
            rwa [getLast?_append_of_ne_nil more]
          suffices said : named = name ∧ Gives meaning shown value by
            obtain ⟨rfl, gives⟩ := said
            rw [whole]
            exact .intro front lead gap after shown back named value
              ⟨before, blanks, between, behind⟩ leads key start ends gives
          cases shown with
          | nil =>
              obtain ⟨rfl, rfl⟩ := Line.assignment.inj read
              exact ⟨rfl, .nothing⟩
          | cons c s =>
              by_cases hash : c = '#'
              · subst hash
                obtain ⟨rfl, rfl⟩ := Line.assignment.inj read
                exact ⟨rfl, .remark s⟩
              · rw [if_neg (by simpa using hash)] at read
                split at read
                · next v spelled =>
                    obtain ⟨rfl, rfl⟩ := Line.assignment.inj read
                    rw [← String.ofList_toList (s := v)] at spelled
                    exact ⟨rfl, .spelled c s v hash ((value?_eq_some_iff meaning).1 spelled)⟩
                · contradiction
  · intro assigns
    generalize whole : text.toList = chars at assigns
    cases assigns with
    | intro front lead gap after shown back name value blanks leads key first last gives =>
        obtain ⟨before, between, later, behind⟩ := blanks
        by_cases empty : shown = []
        · -- All blanks behind the equals sign are at the end of the line.
          subst empty
          have moved : text.toList =
              front ++ (lead ++ (name.toList ++ (gap ++ '=' :: ([] ++ [])))) ++ (after ++ back) := by
            simp [whole]
          refine line_of_parts moved before ?_ leads key between
            (fun c mem => absurd mem List.not_mem_nil) first (fun c mem => nomatch mem) gives
          exact fun c mem => (List.mem_append.1 mem).elim (later c) (behind c)
        · refine line_of_parts whole before behind leads key between later first ?_ gives
          rwa [getLast?_append_of_ne_nil empty]

/-- What is read of a line. -/
def said (meaning : String → String) (l : Bytes) : Line :=
  match Utf8.decode l with
  | .error _ => .bad
  | .ok text => line meaning text

/-- A line is read as the rules say, and so it says one thing. -/
theorem said_eq_iff {l : Bytes} {what : Line} : said meaning l = what ↔ IsLine meaning l what := by
  constructor
  · rintro rfl
    rw [said]
    split
    · next flaw refused =>
        have other := Utf8.exists_decode_eq_error_iff.1 ⟨flaw, refused⟩
        exact .bad (fun text same => absurd same (other text))
          fun text name value same => absurd same (other text)
    · next text read =>
        have written := Utf8.decode_eq_ok_iff.1 read
        have only (text' : String) (same : l = Utf8.encode text') : text' = text := by
          rw [Utf8.decode_eq_ok_iff.2 same] at read
          exact Except.ok.inj read
        cases kind : line meaning text with
        | blank => exact .blank text written (line_eq_blank_iff.1 kind)
        | assignment name value =>
            exact .assignment text name value written (line_eq_assignment_iff.1 kind)
        | bad =>
            refine .bad (fun text' same remark => ?_) fun text' name value same assigns => ?_
            · have blank : line meaning text = .blank :=
                line_eq_blank_iff.2 (only text' same ▸ remark)
              rw [kind] at blank
              contradiction
            · have assignment : line meaning text = .assignment name value :=
                line_eq_assignment_iff.2 (only text' same ▸ assigns)
              rw [kind] at assignment
              contradiction
  · rintro (⟨text, rfl, remark⟩ | ⟨text, name, value, rfl, assigns⟩ | ⟨remark, assigns⟩)
    · rw [said, Utf8.decode_encode]
      exact line_eq_blank_iff.2 remark
    · rw [said, Utf8.decode_encode]
      exact line_eq_assignment_iff.2 assigns
    · rw [said]
      split
      · rfl
      · next text read =>
          have written := Utf8.decode_eq_ok_iff.1 read
          cases kind : line meaning text with
          | blank => exact absurd (line_eq_blank_iff.1 kind) (remark text written)
          | assignment name value =>
              exact absurd (line_eq_assignment_iff.1 kind) (assigns text name value written)
          | bad => rfl

theorem IsLine.unique {l : Bytes} {one other : Line} (isOne : IsLine meaning l one)
    (isOther : IsLine meaning l other) : one = other :=
  (said_eq_iff.2 isOne).symm.trans (said_eq_iff.2 isOther)

end Line

/-! ## Dividing a file into lines -/

section Lines

variable {current l s : Bytes} {ls : List Bytes}

theorem lines_append (inside : 0x0A ∉ l) :
    lines current (l ++ s) = lines (l.reverse ++ current) s := by
  induction l generalizing current with
  | nil => rfl
  | cons b l ih =>
      rw [List.mem_cons, not_or] at inside
      rw [List.cons_append, lines.eq_4 _ _ _ (Ne.symm inside.1), ih inside.2, List.reverse_cons,
        List.append_assoc]
      rfl

theorem IsLines.lines_eq (isLines : IsLines s ls) : lines [] s = ls := by
  induction isLines with
  | nothing => rfl
  | last l more inside =>
      rw [← List.append_nil l, lines_append inside]
      simp [lines, more]
  | line l s ls inside plain later ih =>
      have ends (rest : Bytes) (reversed : l.reverse = 0x0D :: rest) : False := by
        rw [← List.head?_reverse, reversed] at plain
        exact plain rfl
      rw [lines_append inside, List.append_nil, lines.eq_3 _ _ ends, ih, List.reverse_reverse]
  | returned l s ls inside later ih =>
      have inside : 0x0A ∉ l ++ [0x0D] := by simp [inside]
      have whole : l ++ 0x0D :: 0x0A :: s = (l ++ [0x0D]) ++ 0x0A :: s := by simp
      rw [whole, lines_append inside, List.append_nil, List.reverse_append]
      show lines (0x0D :: l.reverse) (0x0A :: s) = _
      rw [lines, ih, List.reverse_reverse]

theorem exists_isLines (s : Bytes) : ∃ ls, IsLines s ls := by
  induction h : s.length using Nat.strong_induction_on generalizing s with
  | _ n ih =>
      subst h
      by_cases feed : 0x0A ∈ s
      · obtain ⟨l, rest, rfl, inside⟩ := List.eq_append_cons_of_mem feed
        obtain ⟨ls, later⟩ := ih rest.length (by simp [Nat.lt_add_left]) rest rfl
        by_cases returned : l.getLast? = some 0x0D
        · obtain ⟨front, rfl⟩ := List.getLast?_eq_some_iff.1 returned
          rw [List.append_assoc]
          rw [List.mem_append, not_or] at inside
          exact ⟨front :: ls, .returned front rest ls inside.1 later⟩
        · exact ⟨l :: ls, .line l rest ls inside returned later⟩
      · by_cases empty : s = []
        · exact ⟨[], empty ▸ .nothing⟩
        · exact ⟨[s], .last s empty feed⟩

/-- A file is divided as the rules say, and in no other way. -/
theorem lines_eq_iff : lines [] s = ls ↔ IsLines s ls := by
  obtain ⟨ls', isLines⟩ := exists_isLines s
  refine ⟨fun same => ?_, IsLines.lines_eq⟩
  rw [isLines.lines_eq] at same
  exact same ▸ isLines

end Lines

end ChatHall.Config.EnvFile
