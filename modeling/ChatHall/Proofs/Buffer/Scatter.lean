/-
# Writing in parts

Advancing drops bytes from the front of the whole, wherever the segments end. So a
socket that takes a part of each offer is handed the whole from the front on, and has
it after at most one offer for each byte. For this the segments must not be empty: an
empty one that is left at the end would be offered to a socket that can take nothing.
-/

import ChatHall.Buffer.Scatter
import Mathlib.Tactic.Common

namespace ChatHall.Buffer.Scatter

/-! ## Advancing -/

theorem flatten_advance (segments : List Bytes) (n : Nat) :
    (advance segments n).flatten = segments.flatten.drop n := by
  induction segments generalizing n with
  | nil => rw [advance, List.flatten_nil, List.drop_nil]
  | cons s rest ih =>
      cases n with
      | zero => rw [advance, List.drop_zero]
      | succ n =>
          rw [advance, List.flatten_cons, List.drop_append]
          split
          · next whole => rw [ih, List.drop_eq_nil_of_le whole, List.nil_append]
          · next part =>
              have none_beyond : n + 1 - s.length = 0 := by omega
              rw [List.flatten_cons, none_beyond, List.drop_zero]

theorem nil_notMem_advance {segments : List Bytes} (filled : [] ∉ segments) (n : Nat) :
    [] ∉ advance segments n := by
  induction segments generalizing n with
  | nil => rwa [advance]
  | cons s rest ih =>
      have filledRest : [] ∉ rest := List.not_mem_of_not_mem_cons filled
      cases n with
      | zero => rwa [advance]
      | succ n =>
          rw [advance]
          split
          · exact ih filledRest _
          · next part =>
              have kept : s.drop (n + 1) ≠ [] := fun empty => part (List.drop_eq_nil_iff.1 empty)
              exact List.not_mem_cons_of_ne_of_not_mem kept.symm filledRest

/-! ## Offers -/

section Offers

variable {done count n : Nat} {left rest : List Bytes} {answers before : List Answer}

theorem writeFrom_took (some_left : left ≠ []) (some_byte : 0 < n) :
    writeFrom done (.took n :: answers) left =
      let later := writeFrom (done + n) answers (advance left n)
      (later.1, left.flatten.take n ++ later.2) := by
  obtain ⟨m, rfl⟩ := Nat.exists_eq_add_of_lt some_byte
  rw [Nat.zero_add]
  cases left with
  | nil => contradiction
  | cons s rest => rfl

/-- Whoever waits has something on offer, and what is answered later is answered to that. -/
theorem writeFrom_append (waits : (writeFrom done before left).1 = .waiting rest count)
    (after : List Answer) :
    rest ≠ [] ∧
      writeFrom done (before ++ after) left =
        let later := writeFrom count after rest
        (later.1, (writeFrom done before left).2 ++ later.2) := by
  induction before generalizing done left with
  | nil =>
      cases left with
      | nil => contradiction
      | cons s others =>
          obtain ⟨rfl, rfl⟩ := Outcome.waiting.inj waits
          exact ⟨List.cons_ne_nil s others, rfl⟩
  | cons answer before ih =>
      cases left with
      | nil => contradiction
      | cons s others =>
          rcases answer with (_ | n) | _
          · contradiction
          · have some_left := List.cons_ne_nil s others
            obtain ⟨some_rest, same⟩ := ih waits
            refine ⟨some_rest, ?_⟩
            rw [List.cons_append, writeFrom_took some_left n.succ_pos, same,
              writeFrom_took some_left n.succ_pos]
            exact Prod.ext rfl (List.append_assoc _ _ _).symm
          · contradiction

/-- A writing stalls at an offer to which the socket answers that it took nothing, and nowhere
else. -/
theorem stalled_iff :
    (writeFrom done answers left).1 = .stalled ↔
      ∃ before after rest count, answers = before ++ .took 0 :: after ∧
        (writeFrom done before left).1 = .waiting rest count := by
  constructor
  · intro stalled
    induction answers generalizing done left with
    | nil => cases left <;> contradiction
    | cons answer answers ih =>
        cases left with
        | nil => contradiction
        | cons s others =>
            rcases answer with (_ | n) | _
            · exact ⟨[], answers, s :: others, done, rfl, rfl⟩
            · obtain ⟨before, after, rest, count, same, waits⟩ := ih stalled
              exact ⟨.took (n + 1) :: before, after, rest, count, congrArg _ same, waits⟩
            · contradiction
  · rintro ⟨before, after, rest, count, rfl, waits⟩
    obtain ⟨some_rest, same⟩ := writeFrom_append waits (.took 0 :: after)
    rw [same]
    cases rest with
    | nil => contradiction
    | cons s others => rfl

end Offers

/-! ## Sockets that take a part of each offer -/

/-- Answers of a socket that takes a part of each offer: at least one byte, and no more than what is
offered. -/
inductive Accepts : List Bytes → List Answer → Prop
  | rest (left : List Bytes) : Accepts left []
  | part (left : List Bytes) (n : Nat) (answers : List Answer) (some_byte : 0 < n)
      (within : n ≤ left.flatten.length) (later : Accepts (advance left n) answers) :
      Accepts left (.took n :: answers)

/-- How far the writing of `left` can have come after some answers of such a socket. -/
inductive Progress (done : Nat) (left : List Bytes) (answers : List Answer) : Outcome × Bytes → Prop
  /-- The whole has been handed over, each byte once and in order. -/
  | through : Progress done left answers (.written (done + left.flatten.length), left.flatten)
  /-- A front has been handed over, at least a byte for each answer, and what is behind it is on
  offer: the socket may take any part of that. -/
  | partway (rest : List Bytes) (taken : Bytes) (whole : taken ++ rest.flatten = left.flatten)
      (some_rest : 0 < rest.flatten.length) (steady : answers.length ≤ taken.length)
      (goes_on : ∀ n, 0 < n → n ≤ rest.flatten.length → Accepts left (answers ++ [.took n])) :
      Progress done left answers (.waiting rest (done + taken.length), taken)

section Accepts

variable {left : List Bytes} {answers : List Answer}

/-- There is at most one answer for each byte. -/
theorem Accepts.length_le (accepts : Accepts left answers) :
    answers.length ≤ left.flatten.length := by
  induction accepts with
  | rest left => exact Nat.zero_le _
  | part left n answers some_byte within later ih =>
      rw [flatten_advance, List.length_drop] at ih
      rw [List.length_cons]
      omega

/-- One more part of the whole makes progress if the rest of the answers does. -/
theorem Progress.part {done n : Nat} {result : Outcome × Bytes} (some_byte : 0 < n)
    (within : n ≤ left.flatten.length)
    (later : Progress (done + n) (advance left n) answers result) :
    Progress done left (.took n :: answers) (result.1, left.flatten.take n ++ result.2) := by
  have length : (left.flatten.take n).length = n := List.length_take_of_le within
  cases later with
  | through =>
      have total : done + n + (advance left n).flatten.length = done + left.flatten.length := by
        rw [flatten_advance, List.length_drop]
        omega
      rw [total, flatten_advance, List.take_append_drop]
      exact .through
  | partway rest taken whole some_rest steady goes_on =>
      have count : done + n + taken.length = done + (left.flatten.take n ++ taken).length := by
        rw [List.length_append, length, Nat.add_assoc]
      rw [count]
      refine .partway rest _ ?_ some_rest ?_ fun k some_more inside => ?_
      · rw [List.append_assoc, whole, flatten_advance, List.take_append_drop]
      · rw [List.length_append, length, List.length_cons]
        omega
      · exact .part left n _ some_byte within (goes_on k some_more inside)

theorem Accepts.progress (accepts : Accepts left answers) (filled : [] ∉ left) (done : Nat) :
    Progress done left answers (writeFrom done answers left) := by
  induction accepts generalizing done with
  | rest left =>
      cases left with
      | nil => exact .through
      | cons s rest =>
          have some_byte : s ≠ [] := List.ne_of_not_mem_cons filled |>.symm
          refine .partway (s :: rest) [] rfl ?_ (Nat.le_refl 0) fun n some_more inside => ?_
          · rw [List.flatten_cons, List.length_append]
            exact Nat.add_pos_left (List.length_pos_iff.2 some_byte) _
          · exact .part _ n [] some_more inside (.rest _)
  | part left n answers some_byte within later ih =>
      have some_left : left ≠ [] := by
        rintro rfl
        exact absurd within (Nat.not_le.2 some_byte)
      rw [writeFrom_took some_left some_byte]
      exact .part some_byte within (ih (nil_notMem_advance filled n) (done + n))

/-- A socket that takes a part of each offer has been handed the whole, or else a front of it with
at least a byte for each answer, and can take any part of what is behind that. -/
theorem Accepts.writeAll (accepts : Accepts left answers) (filled : [] ∉ left) :
    writeAll answers left = (.written left.flatten.length, left.flatten) ∨
      ∃ rest taken, writeAll answers left = (.waiting rest taken.length, taken) ∧
        taken ++ rest.flatten = left.flatten ∧ answers.length ≤ taken.length ∧
        0 < rest.flatten.length ∧
        ∀ n, 0 < n → n ≤ rest.flatten.length → Accepts left (answers ++ [.took n]) := by
  have progress := accepts.progress filled 0
  rw [Scatter.writeAll]
  generalize writeFrom 0 answers left = result at progress ⊢
  cases progress with
  | through =>
      rw [Nat.zero_add]
      exact .inl rfl
  | partway rest taken whole some_rest steady goes_on =>
      rw [Nat.zero_add]
      exact .inr ⟨rest, taken, rfl, whole, steady, some_rest, goes_on⟩

end Accepts

end ChatHall.Buffer.Scatter
