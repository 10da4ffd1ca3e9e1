/-
# The front of a stream

What stands at the front of a byte string is decided in two steps. The header
alone may be at fault. If it is not, it says how long the frame is, and the
frame is judged once it is there. The equations of this module say so for each
way in which the two steps can come out, and the case distinction at the end
says what further bytes can change: only a front that nobody has judged yet.
-/

import ChatHall.Wire.Frame
import Mathlib.Tactic.Common

namespace ChatHall

/-- A split that succeeds is not changed by further bytes. -/
theorem Bytes.splitExact?_append_right {n : Nat} {s payload rest : Bytes}
    (h : splitExact? n s = some (payload, rest)) (t : Bytes) :
    splitExact? n (s ++ t) = some (payload, rest ++ t) := by
  obtain ⟨rfl, rfl⟩ := eq_append_of_splitExact? h
  rw [List.append_assoc]
  exact splitExact?_append payload (rest ++ t)

namespace Wire.Frame

variable (limits : Limits)

/-- What is wrong with a header by itself. -/
def headerFault? (total : Nat) (id : UInt16) : Option Fault :=
  if total < headerSize then some (.frameTooShort total)
  else if limits.maxFrameSize < total then some (.frameTooLong total limits.maxFrameSize)
  else if limits.maxPacketId < id then some (.strangeId id)
  else none

theorem headerFault?_eq_none_iff (total : Nat) (id : UInt16) :
    headerFault? limits total id = none ↔
      headerSize ≤ total ∧ total ≤ limits.maxFrameSize ∧ id ≤ limits.maxPacketId := by
  rw [headerFault?]
  split_ifs with short long strange
  · simp only [false_iff]
    omega
  · simp only [false_iff]
    omega
  · simp only [false_iff, not_and, UInt16.not_le]
    exact fun _ _ => strange
  · simp only [true_iff]
    exact ⟨Nat.not_lt.1 short, Nat.not_lt.1 long, UInt16.not_lt.1 strange⟩

section Header

variable {l₀ l₁ l₂ l₃ i₀ i₁ : UInt8} {body : Bytes}

/-- Without a whole header nothing is judged. -/
theorem front_of_length_lt {s : Bytes} (short : s.length < headerSize) :
    front limits s = .incomplete := by
  rcases s with _ | ⟨l₀, _ | ⟨l₁, _ | ⟨l₂, _ | ⟨l₃, _ | ⟨i₀, _ | ⟨i₁, body⟩⟩⟩⟩⟩⟩
  iterate 6 rfl
  simp only [List.length_cons, headerSize] at short
  omega

/-- A bad header is refused whatever follows. -/
theorem front_of_headerFault? {f : Fault}
    (bad : headerFault? limits (Bytes.toNat [l₀, l₁, l₂, l₃])
      (UInt16.ofNat (Bytes.toNat [i₀, i₁])) = some f) :
    front limits (l₀ :: l₁ :: l₂ :: l₃ :: i₀ :: i₁ :: body) = .invalid f := by
  simp only [headerFault?] at bad
  simp only [front]
  split_ifs at bad ⊢ <;> simp_all

variable
  (good : headerFault? limits (Bytes.toNat [l₀, l₁, l₂, l₃])
    (UInt16.ofNat (Bytes.toNat [i₀, i₁])) = none)

include good

/-- A frame that is not there yet is not judged. -/
theorem front_of_splitExact?_none
    (missing : Bytes.splitExact? (Bytes.toNat [l₀, l₁, l₂, l₃] - headerSize) body = none) :
    front limits (l₀ :: l₁ :: l₂ :: l₃ :: i₀ :: i₁ :: body) = .incomplete := by
  obtain ⟨h₁, h₂, h₃⟩ := (headerFault?_eq_none_iff ..).1 good
  simp only [front, if_neg (Nat.not_lt.2 h₁), if_neg (Nat.not_lt.2 h₂), if_neg (UInt16.not_lt.2 h₃)]
  split
  · rfl
  · next h => simp [missing] at h

/-- A whole frame whose payload is no packet is refused. -/
theorem front_of_packetOf_error {payload rest : Bytes} {f : Fault}
    (whole : Bytes.splitExact? (Bytes.toNat [l₀, l₁, l₂, l₃] - headerSize) body =
      some (payload, rest))
    (bad : packetOf (UInt16.ofNat (Bytes.toNat [i₀, i₁])) payload = .error f) :
    front limits (l₀ :: l₁ :: l₂ :: l₃ :: i₀ :: i₁ :: body) = .invalid f := by
  obtain ⟨h₁, h₂, h₃⟩ := (headerFault?_eq_none_iff ..).1 good
  simp only [front, if_neg (Nat.not_lt.2 h₁), if_neg (Nat.not_lt.2 h₂), if_neg (UInt16.not_lt.2 h₃)]
  split
  · next h => simp [whole] at h
  · next h =>
      rw [whole] at h
      cases h
      rw [bad]

/-- A whole frame with a packet is taken off. -/
theorem front_of_packetOf_ok {payload rest : Bytes} {p : Packet}
    (whole : Bytes.splitExact? (Bytes.toNat [l₀, l₁, l₂, l₃] - headerSize) body =
      some (payload, rest))
    (fine : packetOf (UInt16.ofNat (Bytes.toNat [i₀, i₁])) payload = .ok p) :
    ∃ h, front limits (l₀ :: l₁ :: l₂ :: l₃ :: i₀ :: i₁ :: body) =
      .packet p (headerSize + payload.length) rest h := by
  obtain ⟨h₁, h₂, h₃⟩ := (headerFault?_eq_none_iff ..).1 good
  simp only [front, if_neg (Nat.not_lt.2 h₁), if_neg (Nat.not_lt.2 h₂), if_neg (UInt16.not_lt.2 h₃)]
  split
  · next h => simp [whole] at h
  · next h =>
      rw [whole] at h
      cases h
      split
      · next e => simp [fine] at e
      · next e =>
          rw [fine] at e
          cases e
          obtain ⟨hbody, -⟩ := Bytes.eq_append_of_splitExact? whole
          refine ⟨⟨Nat.le_add_right .., ?_⟩, rfl⟩
          simp only [hbody, List.length_cons, List.length_append, headerSize]
          omega

end Header

/-- What the front of a stream can be, and what becomes of it when more bytes come: only a
front shorter than the largest frame is left for them to decide. -/
theorem front_cases (s : Bytes) :
    (front limits s = .incomplete ∧
      (s.length < headerSize ∨ s.length < limits.maxFrameSize)) ∨
    (∃ f, front limits s = .invalid f ∧ ∀ t, front limits (s ++ t) = .invalid f) ∨
    ∃ p size rest, rest = s.drop size ∧
      (∃ h, front limits s = .packet p size rest h) ∧
      ∀ t, ∃ h, front limits (s ++ t) = .packet p size (rest ++ t) h := by
  by_cases short : s.length < headerSize
  · exact .inl ⟨front_of_length_lt limits short, .inl short⟩
  obtain ⟨l₀, l₁, l₂, l₃, i₀, i₁, body, rfl⟩ :
      ∃ l₀ l₁ l₂ l₃ i₀ i₁ body, s = l₀ :: l₁ :: l₂ :: l₃ :: i₀ :: i₁ :: body := by
    rcases s with _ | ⟨l₀, _ | ⟨l₁, _ | ⟨l₂, _ | ⟨l₃, _ | ⟨i₀, _ | ⟨i₁, body⟩⟩⟩⟩⟩⟩
    iterate 6 exact absurd (by simp [headerSize]) short
    exact ⟨l₀, l₁, l₂, l₃, i₀, i₁, body, rfl⟩
  cases good : headerFault? limits (Bytes.toNat [l₀, l₁, l₂, l₃])
      (UInt16.ofNat (Bytes.toNat [i₀, i₁])) with
  | some f =>
      exact .inr (.inl ⟨f, front_of_headerFault? limits good,
        fun t => front_of_headerFault? limits good⟩)
  | none =>
      cases split : Bytes.splitExact? (Bytes.toNat [l₀, l₁, l₂, l₃] - headerSize) body with
      | none =>
          refine .inl ⟨front_of_splitExact?_none limits good split, .inr ?_⟩
          obtain ⟨-, hmax, -⟩ := (headerFault?_eq_none_iff ..).1 good
          have fewer := (Bytes.splitExact?_eq_none_iff ..).1 split
          simp only [List.length_cons, headerSize] at fewer ⊢
          omega
      | some parts =>
          obtain ⟨payload, rest⟩ := parts
          have more := Bytes.splitExact?_append_right split
          cases judged : packetOf (UInt16.ofNat (Bytes.toNat [i₀, i₁])) payload with
          | error f =>
              exact .inr (.inl ⟨f, front_of_packetOf_error limits good split judged,
                fun t => front_of_packetOf_error limits good (more t) judged⟩)
          | ok p =>
              obtain ⟨hbody, -⟩ := Bytes.eq_append_of_splitExact? split
              refine .inr (.inr ⟨p, headerSize + payload.length, rest, ?_,
                front_of_packetOf_ok limits good split judged,
                fun t => front_of_packetOf_ok limits good (more t) judged⟩)
              rw [hbody, Nat.add_comm]
              simp [headerSize]

variable {limits} {s : Bytes}

/-- A fault stays one. -/
theorem front_append_of_invalid {f : Fault} (h : front limits s = .invalid f) (t : Bytes) :
    front limits (s ++ t) = .invalid f := by
  rcases front_cases limits s with ⟨h', -⟩ | ⟨f', h', all⟩ | ⟨p, size, rest, -, ⟨_, h'⟩, -⟩
  · cases h.symm.trans h'
  · cases h.symm.trans h'
    exact all t
  · cases h.symm.trans h'

/-- A packet stays the same, with the further bytes behind the rest. -/
theorem front_append_of_packet {p : Packet} {size : Nat} {rest : Bytes}
    {hlength : headerSize ≤ size ∧ size + rest.length = s.length}
    (h : front limits s = .packet p size rest hlength) (t : Bytes) :
    ∃ hlength', front limits (s ++ t) = .packet p size (rest ++ t) hlength' := by
  rcases front_cases limits s with ⟨h', -⟩ | ⟨f', h', -⟩ | ⟨p, size, rest, -, ⟨_, h'⟩, all⟩
  · cases h.symm.trans h'
  · cases h.symm.trans h'
  · cases h.symm.trans h'
    exact all t

/-- What is left after a packet. -/
theorem rest_eq_drop {p : Packet} {size : Nat} {rest : Bytes}
    {hlength : headerSize ≤ size ∧ size + rest.length = s.length}
    (h : front limits s = .packet p size rest hlength) : rest = s.drop size := by
  rcases front_cases limits s with ⟨h', -⟩ | ⟨f', h', -⟩ | ⟨p, size, rest, hrest, ⟨_, h'⟩, -⟩
  · cases h.symm.trans h'
  · cases h.symm.trans h'
  · cases h.symm.trans h'
    exact hrest

/-- What nobody can judge yet is shorter than a header or than the largest frame. -/
theorem length_lt_of_incomplete (h : front limits s = .incomplete) :
    s.length < headerSize ∨ s.length < limits.maxFrameSize := by
  rcases front_cases limits s with ⟨-, hlt⟩ | ⟨f', h', -⟩ | ⟨p, size, rest, -, ⟨_, h'⟩, -⟩
  · exact hlt
  · cases h.symm.trans h'
  · cases h.symm.trans h'

end Wire.Frame

end ChatHall
