/-
# Bytes

Byte strings as lists, the exact split that decoders need, and numbers written
in little-endian order.
-/

namespace ChatHall

abbrev Bytes := List UInt8

namespace Bytes

/-- Whether at least `n` bytes are there, found without counting the others. -/
def atLeast : Nat → Bytes → Bool
  | 0, _ => true
  | _ + 1, [] => false
  | n + 1, _ :: s => atLeast n s

theorem atLeast_iff (n : Nat) (s : Bytes) : atLeast n s = true ↔ n ≤ s.length := by
  induction n generalizing s with
  | zero => simp [atLeast]
  | succ n ih =>
    cases s with
    | nil => simp [atLeast]
    | cons b s => simp [atLeast, ih]

/-- The first `n` bytes and the rest, or nothing if there are fewer. -/
def splitExact? (n : Nat) (s : Bytes) : Option (Bytes × Bytes) :=
  if atLeast n s then some (s.take n, s.drop n) else none

theorem splitExact?_append (front rest : Bytes) :
    splitExact? front.length (front ++ rest) = some (front, rest) := by
  have h : atLeast front.length (front ++ rest) = true := (atLeast_iff ..).2 (by simp)
  simp [splitExact?, h]

theorem splitExact?_eq_none_iff (n : Nat) (s : Bytes) :
    splitExact? n s = none ↔ s.length < n := by
  have h := atLeast_iff n s
  cases hb : atLeast n s <;> simp_all [splitExact?]

theorem eq_append_of_splitExact? {n : Nat} {s front rest : Bytes}
    (h : splitExact? n s = some (front, rest)) : s = front ++ rest ∧ front.length = n := by
  have hl := atLeast_iff n s
  cases hb : atLeast n s
  · simp [splitExact?, hb] at h
  · simp only [splitExact?, hb, if_true, Option.some.injEq, Prod.mk.injEq] at h
    obtain ⟨rfl, rfl⟩ := h
    simp_all

/-- The `width` lowest bytes of a number, lowest first. -/
def ofNat : (width : Nat) → Nat → Bytes
  | 0, _ => []
  | width + 1, n => UInt8.ofNat n :: ofNat width (n / 256)

/-- The number that the bytes write, lowest byte first. -/
def toNat : Bytes → Nat
  | [] => 0
  | b :: s => b.toNat + 256 * toNat s

@[simp]
theorem length_ofNat (width n : Nat) : (ofNat width n).length = width := by
  induction width generalizing n with
  | zero => rfl
  | succ width ih => simp [ofNat, ih]

/-- How many numbers `width` bytes can write. -/
def capacity : (width : Nat) → Nat
  | 0 => 1
  | width + 1 => 256 * capacity width

/-- Writing keeps a number modulo what the width can hold. -/
theorem toNat_ofNat (width n : Nat) : toNat (ofNat width n) = n % capacity width := by
  induction width generalizing n with
  | zero => simp [ofNat, toNat, capacity, Nat.mod_one]
  | succ width ih => simp only [ofNat, toNat, ih, UInt8.toNat_ofNat', capacity, Nat.mod_mul]

theorem toNat_lt (s : Bytes) : toNat s < capacity s.length := by
  induction s with
  | nil => simp [toNat, capacity]
  | cons b s ih =>
    have hb : b.toNat < 256 := b.toNat_lt
    simp only [toNat, List.length_cons, capacity]
    omega

/-- Bytes are determined by their number and their count. -/
theorem ofNat_toNat (s : Bytes) : ofNat s.length (toNat s) = s := by
  induction s with
  | nil => rfl
  | cons b s ih =>
    have hb : b.toNat < 256 := b.toNat_lt
    have hdiv : (b.toNat + 256 * toNat s) / 256 = toNat s := by omega
    have hmod : UInt8.ofNat (b.toNat + 256 * toNat s) = b := by
      apply UInt8.toNat_inj.1
      rw [UInt8.toNat_ofNat']
      omega
    simp only [List.length_cons, ofNat, toNat, hdiv, hmod, ih]

def zeros (n : Nat) : Bytes := List.replicate n 0

end Bytes

end ChatHall
