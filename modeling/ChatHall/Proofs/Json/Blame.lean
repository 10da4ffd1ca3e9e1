/-
# What readers find and what they blame

A reader leaves no more bytes than there were, and what it finds weighs no more than
it took: an escape is at least as long as the shortest one for the same character. A
fault of the form names nothing of what was read. So whatever can be repeated of an
input, in a value or in a complaint, is bounded by the length of the input.
-/

import ChatHall.Json.Record
import ChatHall.Json.Value
import ChatHall.Proofs.Json.Weight

namespace ChatHall.Json

open ChatHall.Text

/-! ## Outcomes -/

/-- What is so if something fails, and if it does not. -/
def Comes {ε α : Type} (bad : ε → Prop) (good : α → Prop) : Except ε α → Prop
  | .error e => bad e
  | .ok a => good a

namespace Comes

variable {ε α β : Type} {bad : ε → Prop} {good : α → Prop} {better : β → Prop} {e : Except ε α}

theorem bind {f : α → Except ε β} (h : Comes bad good e)
    (later : ∀ a, good a → Comes bad better (f a)) : Comes bad better (e >>= f) := by
  cases e with
  | error e => exact h
  | ok a => exact later a h

theorem map {f : α → β} (h : Comes bad good e) (later : ∀ a, good a → better (f a)) :
    Comes bad better (e.map f) := by
  cases e with
  | error e => exact h
  | ok a => exact later a h

theorem mapError {ε' : Type} {worse : ε' → Prop} {f : ε → ε'} (h : Comes bad good e)
    (later : ∀ x, bad x → worse (f x)) : Comes worse good (e.mapError f) := by
  cases e with
  | error x => exact later x h
  | ok a => exact h

theorem ite {c : Prop} [Decidable c] {e' : Except ε α} (h : Comes bad good e)
    (h' : Comes bad good e') : Comes bad good (if c then e else e') := by
  split
  · exact h
  · exact h'

theorem any : Comes (fun _ => True) (fun _ => True) e := by
  cases e <;> exact trivial

theorem mono {worse : ε → Prop} {good' : α → Prop} (h : Comes bad good e)
    (errors : ∀ x, bad x → worse x) (values : ∀ a, good a → good' a) : Comes worse good' e := by
  cases e with
  | error x => exact errors x h
  | ok a => exact values a h

end Comes

/-- Whether a cause names nothing that was read. -/
def Cause.isBare : Cause → Bool
  | wrongType .. | wrongValue .. | wrongLength .. => false
  | missingField _ | duplicateField _ | unknownVariant .. => false
  | _ => true

theorem Cause.weight_of_isBare {c : Cause} (bare : c.isBare = true) : weight c.message ≤ 70 := by
  cases c <;> first | contradiction | decide

/-- What comes of reading at most `n` bytes: a fault with a `bad` cause, or something `good` in
front of no more bytes. -/
def Yields {α : Type} (bad : Cause → Prop) (good : α → Prop) (n : Nat) :
    Except Fault (α × Bytes) → Prop :=
  Comes (fun f => bad f.cause) fun read => good read.1 ∧ read.2.length ≤ n

/-- Nothing that was read is blamed. -/
abbrev Bare (c : Cause) : Prop := c.isBare = true

namespace Reader

variable {s rest : Bytes} {n : Nat}

/-! ## Between values -/

theorem length_skipBlanks_le (s : Bytes) : (skipBlanks s).length ≤ s.length :=
  (List.dropWhile_sublist _).length_le

theorem yields_word (letters : List Char) (short : s.length ≤ n) :
    Yields Bare (fun _ => True) n (word letters s) := by
  induction letters generalizing s with
  | nil => exact ⟨trivial, short⟩
  | cons c letters ih =>
      cases s with
      | nil => exact rfl
      | cons b s =>
          rw [word]
          exact .ite (ih (Nat.le_of_succ_le short)) rfl

theorem yields_nextItem (first : Bool) (short : s.length ≤ n) :
    Yields Bare (fun _ => True) n (nextItem first s) := by
  have blanks := length_skipBlanks_le s
  rw [nextItem]
  dsimp only
  cases front : skipBlanks s with
  | nil => exact rfl
  | cons b rest =>
      rw [front] at blanks
      have kept := Nat.le_trans blanks short
      refine .ite ⟨trivial, kept⟩ (.ite ⟨trivial, kept⟩ (.ite ?_ rfl))
      have more := length_skipBlanks_le rest
      cases behind : skipBlanks rest with
      | nil => exact rfl
      | cons b' rest' =>
          rw [behind] at more
          exact .ite rfl ⟨trivial, Nat.le_trans more (Nat.le_of_succ_le kept)⟩

theorem yields_nextKey (first : Bool) (short : s.length ≤ n) :
    Yields Bare (fun _ => True) n (nextKey first s) := by
  have blanks := length_skipBlanks_le s
  rw [nextKey]
  dsimp only
  cases front : skipBlanks s with
  | nil => exact rfl
  | cons b rest =>
      rw [front] at blanks
      have kept := Nat.le_trans blanks short
      refine .ite ⟨trivial, kept⟩ (.ite ?_ (.ite ?_ rfl))
      · exact .ite ⟨trivial, Nat.le_of_succ_le kept⟩ (.ite rfl rfl)
      · have more := Nat.le_trans (length_skipBlanks_le rest) (Nat.le_of_succ_le kept)
        cases behind : skipBlanks rest with
        | nil => exact rfl
        | cons b' rest' =>
            rw [behind] at more
            exact .ite ⟨trivial, Nat.le_of_succ_le more⟩ (.ite rfl rfl)

theorem yields_colon (short : s.length ≤ n) : Yields Bare (fun _ => True) n (colon s) := by
  have blanks := length_skipBlanks_le s
  rw [colon]
  cases front : skipBlanks s with
  | nil => exact rfl
  | cons b rest =>
      rw [front] at blanks
      exact .ite ⟨trivial, Nat.le_of_succ_le (Nat.le_trans blanks short)⟩ rfl

end Reader

/-! ## Texts -/

namespace Text

variable {s rest : Bytes} {n : Nat}

/-- What stands at the front of a text weighs no more than it takes, together with what has been
`spent` on its introduction. A fault is bare. -/
def Piece.Light (spent : Nat) {s : Bytes} : Piece s → Prop
  | .closing rest => rest.length + 1 ≤ s.length + spent
  | .bytes decoded rest _ => (decoded.map weigh).sum + rest.length ≤ s.length + spent
  | .fault f => Bare f.cause

theorem bare_of_hex {f : Fault} (fault : hex s = .fault f) : Bare f.cause := by
  rw [hex.eq_def] at fault
  split at fault
  · split at fault
    · contradiction
    · obtain rfl := Hex.fault.inj fault
      rfl
  · obtain rfl := Hex.fault.inj fault
    rfl

theorem length_of_hex {code : Nat} {length_eq : rest.length + 4 = s.length}
    (_ : hex s = .value code rest length_eq) : rest.length + 4 = s.length := length_eq

theorem sum_weigh_encodeChar_le (c : Char) : ((Utf8.encodeChar c).map weigh).sum ≤ 6 := by
  rw [sum_weigh_encodeChar]
  exact length_textChar_le c

/-- Four digits behind a backslash and a letter: six bytes, which are the most that a character
weighs. -/
theorem light_unicodeEscape (s : Bytes) : (unicodeEscape s).Light 2 := by
  rw [unicodeEscape]
  split
  · next f fault => exact bare_of_hex fault
  · next code s₁ length_eq value =>
      split
      · exact rfl
      · split
        · split
          · exact rfl
          · split
            · split
              · exact rfl
              · split
                · split
                  · next f fault => exact bare_of_hex fault
                  · next low rest _ value' =>
                      split
                      · have char := sum_weigh_encodeChar_le (Char.ofNat (join code low))
                        have first := length_of_hex value
                        have second := length_of_hex value'
                        rw [List.length_cons, List.length_cons] at first
                        rw [Piece.Light]
                        omega
                      · exact rfl
                · exact rfl
            · exact rfl
        · have char := sum_weigh_encodeChar_le (Char.ofNat code)
          rw [Piece.Light]
          omega

theorem weigh_le_of_shortEscape? {e c : UInt8} (short : shortEscape? e = some c) :
    weigh c ≤ 2 := by
  rw [shortEscape?] at short
  split_ifs at short with itself
  · obtain rfl := Option.some.inj short
    simp only [Bool.or_eq_true, beq_iff_eq] at itself
    rcases itself with (rfl | rfl) | rfl <;> decide
  all_goals
    obtain rfl := Option.some.inj short
    decide

theorem light_piece (s : Bytes) : (piece s).Light 0 := by
  rw [piece.eq_def]
  split
  · exact rfl
  · next b s₁ =>
      split
      · exact Nat.le_refl _
      · next notQuote =>
          split
          · split
            · exact rfl
            · next e s₂ =>
                split
                · have light := light_unicodeEscape s₂
                  split
                  · next escape =>
                      rw [escape] at light
                      exact light
                  · next escape =>
                      rw [escape] at light
                      exact light
                  · next escape =>
                      rw [escape] at light
                      exact light
                · split
                  · next c short =>
                      have light := weigh_le_of_shortEscape? short
                      simp only [Piece.Light, List.map_singleton, List.sum_singleton,
                        List.length_cons]
                      omega
                  · exact rfl
          · next notBackslash =>
              split
              · exact rfl
              · next printable =>
                  have plain : IsPlain b := ⟨fun same => notQuote (beq_of_eq same),
                    fun same => notBackslash (beq_of_eq same), printable⟩
                  simp only [Piece.Light, List.map_singleton, List.sum_singleton,
                    List.length_cons, weigh_of_isPlain plain]
                  omega

/-- A text between quotes weighs no more than it takes. -/
theorem comes_readFrom (seen s : Bytes) : Comes (fun f => Bare f.cause)
    (fun read => (read.1.map weigh).sum + read.2.length + 1 ≤ (seen.map weigh).sum + s.length)
    (readFrom seen s) := by
  fun_induction readFrom seen s with
  | case1 seen s rest closing =>
      have light := light_piece s
      rw [closing] at light
      rw [Piece.Light] at light
      rw [Comes, List.map_reverse, List.sum_reverse]
      dsimp only
      omega
  | case2 seen s f fault =>
      have light := light_piece s
      rw [fault] at light
      exact light
  | case3 seen s decoded rest shorter bytes ih =>
      have light := light_piece s
      rw [bytes] at light
      rw [Piece.Light] at light
      refine ih.mono (fun f bare => bare) fun read whole => ?_
      rw [List.map_append, List.sum_append, List.map_reverse, List.sum_reverse] at whole
      omega

theorem yields_read (short : s.length ≤ n) :
    Yields Bare (fun t => weight t + 1 ≤ n) n (read s) := by
  refine (comes_readFrom [] s).bind fun read light => ?_
  obtain ⟨bytes, rest⟩ := read
  dsimp only at light ⊢
  split
  · next t decoded =>
      rw [Utf8.decode_eq_ok_iff.1 decoded, sum_weigh_encode, List.map_nil, List.sum_nil] at light
      refine ⟨?_, ?_⟩
      · dsimp only
        omega
      · dsimp only
        omega
  · exact rfl

end Text

/-! ## Numbers -/

/-- What can be repeated of a scalar is bounded by the `n` bytes in which it stands. -/
def Scalar.FitsIn (n : Nat) : Scalar → Prop
  | .text t => weight t + 2 ≤ n
  | .integer k => k.natAbs < 10 ^ 20
  | _ => True

namespace Literal

variable {s rest : Bytes} {n : Nat} {atEnd : Cause}

theorem length_digits_le (s : Bytes) : (digits s).2.length ≤ s.length :=
  (List.dropWhile_sublist _).length_le

theorem yields_readWhole (bare : Bare atEnd) (short : s.length ≤ n) :
    Yields Bare (fun _ => True) n (readWhole atEnd s) := by
  cases s with
  | nil => exact bare
  | cons b s =>
      have fits : s.length ≤ n := Nat.le_of_succ_le short
      rw [readWhole.eq_def]
      dsimp only
      split
      · exact rfl
      · split
        · exact ⟨trivial, Nat.zero_le n⟩
        · exact .ite rfl ⟨trivial, fits⟩
      · exact ⟨trivial, Nat.le_trans (length_digits_le s) fits⟩

theorem yields_readFraction (bare : Bare atEnd) (short : s.length ≤ n) :
    Yields Bare (fun _ => True) n (readFraction atEnd s) := by
  cases s with
  | nil => exact ⟨trivial, short⟩
  | cons b s =>
      have digits := length_digits_le s
      rw [readFraction.eq_def]
      refine .ite ?_ ⟨trivial, short⟩
      split
      · exact bare
      · exact rfl
      · next read =>
          rw [read] at digits
          exact ⟨trivial, Nat.le_trans digits (Nat.le_of_succ_le short)⟩

/-- The digits of an exponent, behind its letter and its sign. -/
def readPower (atEnd : Cause) (negative : Bool) : Reader (Option (Bool × List Nat))
  | [] => .error (faultAfter atEnd [])
  | b :: rest =>
    match digit? b with
    | none => .error (faultAfter .badNumber rest)
    | some d =>
      let (later, rest) := digits rest
      .ok (some (negative, d :: later), rest)

theorem yields_readPower (bare : Bare atEnd) (negative : Bool) (short : s.length ≤ n) :
    Yields Bare (fun _ => True) n (readPower atEnd negative s) := by
  cases s with
  | nil => exact bare
  | cons b rest =>
      rw [readPower]
      split
      · exact rfl
      · exact ⟨trivial, Nat.le_trans (length_digits_le rest) (Nat.le_of_succ_le short)⟩

theorem yields_readExponent (bare : Bare atEnd) (short : s.length ≤ n) :
    Yields Bare (fun _ => True) n (readExponent atEnd s) := by
  cases s with
  | nil => exact ⟨trivial, short⟩
  | cons b s =>
      have fits : s.length ≤ n := Nat.le_of_succ_le short
      rw [readExponent.eq_def]
      refine .ite ?_ ⟨trivial, short⟩
      cases s with
      | nil => exact yields_readPower bare false fits
      | cons b' rest =>
          by_cases minus : (b' == 0x2D) = true
          · simp only [minus, if_true]
            exact yields_readPower bare true (Nat.le_of_succ_le fits)
          · by_cases plus : (b' == 0x2B) = true
            · simp only [minus, plus, if_true, Bool.false_eq_true, if_false]
              exact yields_readPower bare false (Nat.le_of_succ_le fits)
            · simp only [minus, plus, Bool.false_eq_true, if_false]
              exact yields_readPower bare false fits

def readUnsigned (atEnd : Cause) (negative : Bool) : Reader Literal := fun s => do
  let (whole, s) ← readWhole atEnd s
  let (fraction, s) ← readFraction atEnd s
  let (exponent, s) ← readExponent atEnd s
  .ok ({ negative, whole, fraction, exponent }, s)

theorem yields_readUnsigned (bare : Bare atEnd) (negative : Bool) (short : s.length ≤ n) :
    Yields Bare (fun _ => True) n (readUnsigned atEnd negative s) := by
  refine (yields_readWhole bare short).bind fun whole first => ?_
  refine (yields_readFraction bare first.2).bind fun fraction second => ?_
  refine (yields_readExponent bare second.2).bind fun exponent third => ?_
  exact ⟨trivial, third.2⟩

theorem yields_read (bare : Bare atEnd) (short : s.length ≤ n) :
    Yields Bare (fun _ => True) n (read atEnd s) := by
  cases s with
  | nil => exact yields_readUnsigned bare false short
  | cons b rest =>
      rw [read]
      dsimp only
      split
      · exact yields_readUnsigned bare true (Nat.le_of_succ_le short)
      · exact yields_readUnsigned bare false short

theorem absorb_le (limit : Nat) {value : Nat} (within : value ≤ limit) (used : Nat) (digits : List Nat) :
    (absorb limit value used digits).1 ≤ limit := by
  induction digits generalizing value used with
  | nil => exact within
  | cons d ds ih =>
      rw [absorb]
      split
      · exact within
      · next fits => exact ih (Nat.not_lt.1 fits) (used + 1)

/-- An integer has at most twenty digits; whatever is larger becomes a float. -/
theorem comes_value (l : Literal) (rest : Bytes) (n : Nat) :
    Comes (fun f => Bare f.cause) (fun x => x.scalar.FitsIn n) (l.value rest) := by
  have whole := absorb_le maxSignificand (Nat.zero_le _) 0 l.whole
  have largest : maxSignificand < 10 ^ 20 := by decide
  rw [value]
  dsimp only
  refine .ite ?_ ?_
  · rw [integer?]
    split
    · show (Int.natAbs _) < _
      omega
    · split
      · show (Int.natAbs _) < _
        omega
      · exact trivial
  · split
    · split
      · exact trivial
      · exact rfl
    · split
      · split
        · exact trivial
        · exact rfl
      · exact .ite rfl trivial

end Literal

theorem Number.yields_read {s : Bytes} {n : Nat} (short : s.length ≤ n) :
    Yields Bare (fun x => x.scalar.FitsIn n) n (read s) := by
  refine (Literal.yields_read rfl short).bind fun literal fits => ?_
  refine (Literal.comes_value literal.1 literal.2 n).bind fun x small => ?_
  exact ⟨small, fits.2⟩

/-! ## Values -/

/-- What can be repeated of what was found is bounded by the `n` bytes in which it stands. -/
def Found.FitsIn (n : Nat) : Found → Prop
  | .scalar x => x.FitsIn n
  | _ => True

/-- What stands at the front, as it is named in a complaint. -/
def Front.found : Front → Found
  | .scalar x => .scalar x
  | .list => .sequence
  | .object => .map

namespace Reader

variable {α : Type} {bad : Cause → Prop} {good : α → Prop} {s : Bytes} {n : Nat}

theorem yields_front (short : s.length ≤ n) : Yields Bare (fun f => f.found.FitsIn n) n (front s) := by
  have blanks := length_skipBlanks_le s
  rw [front]
  dsimp only
  cases stands : skipBlanks s with
  | nil => exact rfl
  | cons b rest =>
      rw [stands] at blanks
      have kept := Nat.le_trans blanks short
      have fits : rest.length + 1 ≤ n := kept
      refine .ite ⟨trivial, Nat.le_of_succ_le fits⟩ (.ite ⟨trivial, Nat.le_of_succ_le fits⟩ ?_)
      refine .ite ?_ (.ite ?_ (.ite ?_ (.ite ?_ (.ite ?_ rfl))))
      · refine (Text.yields_read (Nat.le_refl rest.length)).map fun read found => ?_
        exact ⟨Nat.le_trans (Nat.add_le_add_right found.1 1) fits,
          Nat.le_trans found.2 (Nat.le_of_succ_le fits)⟩
      · exact (yields_word _ (Nat.le_of_succ_le fits)).map fun read found => ⟨trivial, found.2⟩
      · exact (yields_word _ (Nat.le_of_succ_le fits)).map fun read found => ⟨trivial, found.2⟩
      · exact (yields_word _ (Nat.le_of_succ_le fits)).map fun read found => ⟨trivial, found.2⟩
      · exact (Number.yields_read kept).map fun read found => found

/-- A text is found behind a quote and nowhere else. -/
theorem quote_of_front {t : String} {rest : Bytes} (stands : front s = .ok (.scalar (.text t), rest)) :
    (skipBlanks s).head? = some 0x22 := by
  have number (x : Number) (t : String) : Front.scalar x.scalar ≠ .scalar (.text t) := by
    cases x <;> simp [Number.scalar]
  have other {b : UInt8} {behind : Bytes} (begins : skipBlanks s = b :: behind) (differs : b ≠ 0x22) :
      Comes (fun _ => True) (fun read => ∀ t, read.1 ≠ .scalar (.text t)) (front s) := by
    rw [front, begins]
    simp only [beq_false_of_ne differs, Bool.false_eq_true, if_false]
    refine .ite (by simp [Comes]) (.ite (by simp [Comes]) (.ite ?_ (.ite ?_ (.ite ?_ (.ite ?_ trivial)))))
    · exact Comes.any.map fun _ _ => by simp
    · exact Comes.any.map fun _ _ => by simp
    · exact Comes.any.map fun _ _ => by simp
    · exact Comes.any.map fun read _ => number read.1
  cases begins : skipBlanks s with
  | nil =>
      rw [front, begins] at stands
      contradiction
  | cons b behind =>
      by_contra differs
      have found := other begins fun same => differs (congrArg some same)
      rw [stands] at found
      exact found t rfl

/-- A scalar that is picked, or the complaint about it. -/
theorem yields_scalar (bare : ∀ c, Bare c → bad c) {expected : String}
    {pick : Found → Except Cause α} (short : s.length ≤ n)
    (picks : ∀ x : Scalar, x.FitsIn n → Comes bad good (pick (.scalar x)))
    (list : bad (.wrongType .sequence expected)) (object : bad (.wrongType .map expected)) :
    Yields bad good n (scalar expected pick s) := by
  refine ((yields_front short).mono (fun f => bare f.cause) fun _ => id).bind fun read found => ?_
  obtain ⟨front, rest⟩ := read
  cases front with
  | scalar x =>
      have picked := picks x found.1
      dsimp only
      cases outcome : pick (.scalar x) with
      | ok a =>
          rw [outcome] at picked
          exact ⟨picked, found.2⟩
      | error cause =>
          rw [outcome] at picked
          exact picked
  | list => exact list
  | object => exact object

section Loops

variable {element : Reader α} (elements : ∀ s, s.length ≤ n → Yields Bare good n (element s))
include elements

theorem yields_items (fuel : Nat) (first : Bool) {seen : List α} (kept : ∀ a ∈ seen, good a)
    (short : s.length ≤ n) :
    Yields Bare (fun values => (∀ a ∈ values, good a) ∧ values.length ≤ seen.length + fuel) n
      (items element fuel first seen s) := by
  have done (fuel : Nat) {seen : List α} (kept : ∀ a ∈ seen, good a) :
      (∀ a ∈ seen.reverse, good a) ∧ seen.reverse.length ≤ seen.length + fuel := by
    refine ⟨fun a mem => kept a (List.mem_reverse.1 mem), ?_⟩
    rw [List.length_reverse]
    exact Nat.le_add_right _ _
  induction fuel generalizing first seen s with
  | zero => exact ⟨done 0 kept, short⟩
  | succ fuel ih =>
      refine (yields_nextItem first short).bind fun next there => ?_
      refine .ite ?_ ⟨done _ kept, there.2⟩
      refine (elements _ there.2).bind fun read found => ?_
      refine (ih false (List.forall_mem_cons.2 ⟨found.1, kept⟩) found.2).mono (fun _ => id) ?_
      rintro ⟨values, rest⟩ ⟨⟨all, few⟩, fits⟩
      rw [List.length_cons, Nat.add_assoc, Nat.add_comm 1] at few
      exact ⟨⟨all, few⟩, fits⟩

theorem yields_entries (fuel : Nat) (first : Bool) (seen : List (String × α))
    (short : s.length ≤ n) :
    Yields Bare (fun _ => True) n (entries element fuel first seen s) := by
  induction fuel generalizing first seen s with
  | zero => exact ⟨trivial, short⟩
  | succ fuel ih =>
      refine (yields_nextKey first short).bind fun next there => ?_
      refine .ite ?_ ⟨trivial, there.2⟩
      refine (Text.yields_read there.2).bind fun key opened => ?_
      refine (yields_colon opened.2).bind fun _ parted => ?_
      refine (elements _ parted.2).bind fun read found => ?_
      exact ih false _ found.2

end Loops

end Reader

open Reader

theorem Value.yields_read (depth : Nat) {s : Bytes} {n : Nat} (short : s.length ≤ n) :
    Yields Bare (fun v => v.found.FitsIn n) n (Value.read depth s) := by
  have behind {rest : Bytes} (fits : rest.length ≤ n) : (rest.drop 1).length ≤ n :=
    Nat.le_trans (List.drop_sublist 1 rest).length_le fits
  induction depth generalizing s with
  | zero =>
      rw [Value.read]
      refine (yields_front short).bind fun read found => ?_
      obtain ⟨front, rest⟩ := read
      cases front with
      | scalar x => exact found
      | list => exact rfl
      | object => exact rfl
  | succ depth ih =>
      rw [Value.read]
      refine (yields_front short).bind fun read found => ?_
      obtain ⟨front, rest⟩ := read
      cases front with
      | scalar x => exact found
      | list =>
          refine (yields_items (fun s => ih) _ true (fun _ => List.not_mem_nil.elim) found.2).bind
            fun read inside => ?_
          exact ⟨trivial, behind inside.2⟩
      | object =>
          refine (yields_entries (fun s => ih) _ true [] found.2).bind fun read inside => ?_
          exact ⟨trivial, behind inside.2⟩

/-! ## Behind values -/

namespace Reader

variable {α : Type} {bad : Cause → Prop} {good : α → Prop} {s : Bytes} {n : Nat}

/-- What comes of reading between brackets, where a fault comes with the rest that it leaves. -/
def YieldsInside (bad : Cause → Prop) (good : α → Prop) (n : Nat) :
    Except (Fault × Bytes) (α × Bytes) → Prop :=
  Comes (fun e => bad e.1.cause) fun read => good read.1 ∧ read.2.length ≤ n

theorem yieldsInside_placed (bare : ∀ c, Bare c → bad c) {e : Except Fault (α × Bytes)}
    (h : Yields Bare good n e) : YieldsInside bad good n (Record.placed e) :=
  h.mapError fun f => bare f.cause

/-- An end takes at least its bracket, and a fault is bare. -/
def EndsWithin (n : Nat) : Except (Fault × Bytes) Bytes → Prop :=
  Comes (fun e => Bare e.1.cause) fun rest => rest.length ≤ n

theorem endsWithin_objectEnd (short : s.length ≤ n) : EndsWithin n (objectEnd s) := by
  have blanks := length_skipBlanks_le s
  rw [objectEnd]
  cases stands : skipBlanks s with
  | nil => exact rfl
  | cons b rest =>
      rw [stands] at blanks
      exact .ite (Nat.le_of_succ_le (Nat.le_trans blanks short)) (.ite rfl rfl)

theorem endsWithin_listEnd (short : s.length ≤ n) : EndsWithin n (listEnd s) := by
  have blanks := length_skipBlanks_le s
  rw [listEnd]
  cases stands : skipBlanks s with
  | nil => exact rfl
  | cons b rest =>
      rw [stands] at blanks
      refine .ite (Nat.le_of_succ_le (Nat.le_trans blanks short)) (.ite ?_ rfl)
      dsimp only
      split <;> exact rfl

theorem yields_closing (bare : ∀ c, Bare c → bad c)
    {ending : Bytes → Except (Fault × Bytes) Bytes}
    (ends : ∀ s, s.length ≤ n → EndsWithin n (ending s)) {inside : Except (Fault × Bytes) (α × Bytes)}
    (h : YieldsInside bad good n inside) : Yields bad good n (closing ending inside) := by
  cases inside with
  | ok read =>
      have ended := ends read.2 h.2
      rw [closing]
      cases outcome : ending read.2 with
      | ok rest =>
          rw [outcome] at ended
          exact ⟨h.1, ended⟩
      | error e =>
          rw [outcome] at ended
          exact bare _ ended
  | error e =>
      rw [closing]
      cases ending e.2 with
      | ok rest => exact h
      | error e' => exact h

theorem comes_finished (bare : ∀ c, Bare c → bad c) {read : α × Bytes} (found : good read.1) :
    Comes (fun f => bad f.cause) good (finished read) := by
  rw [finished]
  split
  · exact found
  · exact bare _ rfl

end Reader

end ChatHall.Json
