/-
# How much of a command its answer repeats

What a command is about comes back in its answer, and so may what is wrong with it. A
command that is decoded weighs no more than its text, since the text is not shorter
than it has to be. A complaint quotes at most a tag that is not known, as it stands.
Only a text that is a mere string is quoted whole, with escapes that are escaped
again, and that makes up to seven bytes of one.
-/

import ChatHall.Chat.Command
import ChatHall.Proofs.Json.Complaint
import ChatHall.Proofs.Json.Message

namespace ChatHall.Chat

open ChatHall.Text ChatHall.Json

namespace Command

/-- The room or the message that a command is about. -/
def subject : Command → String
  | joinRoom room | leaveRoom room => room
  | sendMessage message => message

/-- Whether a text is a JSON string, as far as its front tells. -/
def isMereString (text : String) : Bool :=
  (Reader.skipBlanks (Utf8.encode text)).head? = some 0x22

/-- How many bytes of a text an answer to it may repeat. -/
def echo (text : String) : Nat :=
  if isMereString text then 7 * (Utf8.encode text).length else (Utf8.encode text).length

theorem length_le_echo (text : String) : (Utf8.encode text).length ≤ echo text := by
  rw [echo]
  split <;> omega

/-! ## Decoding -/

/-- A tag that is not known is told as it stands, beside those that are known. -/
theorem weight_unknownVariant (name : String) :
    weight (Cause.message (.unknownVariant name (union.variants.map Variant.name))) =
      weight name + 74 := by
  let names := ", ".intercalate ((union.variants.map Variant.name).map fun k => s!"`{k}`")
  have shown : Cause.message (.unknownVariant name (union.variants.map Variant.name)) =
      "unknown variant `" ++ name ++ "`, expected one of " ++ names := rfl
  have opening : weight "unknown variant `" = 17 := by decide
  have middle : weight "`, expected one of " = 19 := by decide
  have known : weight names = 38 := by decide
  rw [shown, weight_append, weight_append, weight_append, opening, middle, known]
  omega

section Complains

variable {n k : Nat}

/-- The value of a draft is in the text that is being read. -/
def Draft.FitsIn (n : Nat) (d : Draft) : Prop := ∀ v ∈ d.value, weight v + 2 ≤ n

/-- A complaint that takes at most `k` bytes. -/
abbrev Brief (k : Nat) (c : Cause) : Prop := weight c.message ≤ k

variable (small : n < 9999) (brief : 128 ≤ k)
include small brief

theorem complains_variant {name valueName : String} {make : String → Command}
    (subject : ∀ v, (make v).subject = v) (shortName : weight name ≤ 12)
    (shortValueName : weight valueName ≤ 12) :
    (variant name valueName make).Complains "ClientCommand" n (Brief k) (Draft.FitsIn n)
      (fun c => weight c.subject + 2 ≤ n) where
  take slot mem draft found _ within := by
    obtain rfl := List.mem_singleton.1 mem
    have wrong (other : ∀ t, found ≠ .scalar (.text t)) :
        Brief k (.wrongType found "a string") := by
      have named := within.weight_message_le other
      have expected : weight "a string" = 8 := by decide
      rw [Brief, Cause.weight_wrongType, expected]
      omega
    cases found with
    | scalar x =>
        cases x with
        | text t =>
            intro v taken
            obtain rfl := Option.some.inj taken
            exact within
        | _ => exact wrong (by simp)
    | _ => exact wrong (by simp)
  duplicate slot mem := by
    obtain rfl := List.mem_singleton.1 mem
    rw [Brief, Cause.weight_duplicateField]
    exact Nat.le_trans (Nat.add_le_add_right shortValueName 18) (by omega)
  build draft fits := by
    rw [variant]
    dsimp only
    cases value : draft.value with
    | none =>
        rw [Comes, Brief, Cause.weight_missingField]
        omega
    | some v =>
        rw [Comes, subject]
        exact fits v value
  tooMany count few := by
    have expected : weight s!"{elementCount 1} in sequence" = 21 := by decide
    have complaint := Cause.weight_wrongLength_le
      (Nat.lt_of_le_of_lt few (show 1 + (n + 1) < 10 ^ 20 by omega))
      s!"{elementCount 1} in sequence"
    rw [expected] at complaint
    exact Nat.le_trans complaint (by omega)
  tooFew count few := by
    let expected := s!"struct variant ClientCommand::{name} with {elementCount 1}"
    have shown : expected =
        "struct variant " ++ "ClientCommand" ++ "::" ++ name ++ " with " ++ elementCount 1 := rfl
    have front : weight ("struct variant " ++ "ClientCommand" ++ "::") = 30 := by decide
    have behind : weight " with " = 6 ∧ weight (elementCount 1) = 9 := by decide
    have complaint := Cause.weight_wrongLength_le
      (Nat.lt_trans few (show 1 < 10 ^ 20 by decide)) expected
    rw [shown, weight_append, weight_append, weight_append, front, behind.1, behind.2] at complaint
    exact Nat.le_trans complaint (by omega)

/-- What is wrong with a command is told briefly, unless it is quoted. -/
theorem complains_union (tag : n + 74 ≤ k) :
    union.Complains n (Brief k) (Draft.FitsIn n) fun c => weight c.subject + 2 ≤ n where
  bare c bare := Nat.le_trans (Cause.weight_of_isBare bare) (by omega)
  missing := Nat.le_trans (show weight (Cause.message (.missingField tagKey)) ≤ 20 by decide)
    (by omega)
  duplicate := Nat.le_trans (show weight (Cause.message (.duplicateField tagKey)) ≤ 22 by decide)
    (by omega)
  unknown name fits := by
    rw [Brief, weight_unknownVariant]
    omega
  mistyped found fits other := by
    have named := fits.weight_message_le other
    have expected : weight "variant identifier" = 18 := by decide
    rw [Brief, Cause.weight_wrongType, expected]
    omega
  blank := fun _ no_value => absurd no_value (Option.not_mem_none _)
  variants v mem := by
    simp only [union, List.mem_cons, List.not_mem_nil, or_false] at mem
    rcases mem with rfl | rfl | rfl
    all_goals exact complains_variant small brief (fun _ => rfl) (by decide) (by decide)

end Complains

/-! ## Scalars in the place of a command -/

/-- Only what starts with a quote is read as a text. -/
theorem isMereString_of_front {text t : String} {rest : Bytes}
    (stands : Reader.front (Utf8.encode text) = .ok (.scalar (.text t), rest)) :
    isMereString text = true :=
  decide_eq_true (Reader.quote_of_front stands)

/-- A command is decoded into something that its text holds, or there is something wrong with it
that can be told by repeating what may be repeated of it. -/
theorem comes_decode (text : String) (small : (Utf8.encode text).length < 9999) :
    Comes (fun e => weight e.message ≤ max (echo text + 117) 171)
      (fun c => weight c.subject + 2 ≤ (Utf8.encode text).length) (decode text) := by
  have within := length_le_echo text
  have complains := complains_union (k := max (echo text + 74) 128) small (by omega) (by omega)
  have expected : weight union.expected = 36 := by decide
  have scalar (x : Scalar) (rest : Bytes)
      (stands : Reader.front (Utf8.encode text) = .ok (.scalar x, rest))
      (fits : x.FitsIn (Utf8.encode text).length) :
      Brief (max (echo text + 74) 128) (.wrongType (.scalar x) union.expected) := by
    rw [Brief, Cause.weight_wrongType, expected]
    by_cases is_text : ∃ t, x = .text t
    · obtain ⟨t, rfl⟩ := is_text
      have quoted := Found.weight_message_text_le fits
      have whole : echo text = 7 * (Utf8.encode text).length := if_pos (isMereString_of_front stands)
      omega
    · have named : Found.FitsIn (Utf8.encode text).length (.scalar x) := fits
      have short := named.weight_message_le fun t same => is_text ⟨t, Found.scalar.inj same⟩
      omega
  have decoded := complains.comes_decode (Nat.le_refl _) scalar
  refine decoded.mapError fun f brief => ?_
  have shown (m : String) : Error.message (.badCommand m) = "잘못된 명령: " ++ m := rfl
  have front : weight "잘못된 명령: " = 18 := by decide
  have told := f.weight_message_le small
  rw [shown, weight_append, front]
  omega

end Command

end ChatHall.Chat
