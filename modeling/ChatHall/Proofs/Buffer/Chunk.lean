/-
# What operations do to a chunk

Writing a reserved region changes nothing of the room, and closing takes from it what
it gives out. The region is the front of what has not been given out; bytes laid over
it stay in it.
-/

import ChatHall.Buffer.Chunk
import ChatHall.Proofs.Buffer.Receive

namespace ChatHall.Buffer

/-! ## Overlaid memory -/

/-- Laying bytes over a front of some memory changes nothing behind it. -/
theorem Receive.take_overlay_take (memory data : Bytes) (n : Nat) (front : n ≤ memory.length) :
    (overlay memory (data.take n)).take n = overlay (memory.take n) data := by
  have cut : (data.take n).take memory.length = data.take n := by
    rw [List.take_take, Nat.min_eq_right front]
  have length : (memory.take n).length = n := by
    rw [List.length_take, Nat.min_eq_left front]
  rw [overlay, overlay, cut, length, List.take_append, List.length_take, List.take_take,
    Nat.min_self, List.drop_take]
  congr 1
  by_cases few : data.length ≤ n
  · rw [Nat.min_eq_right few]
  · rw [Nat.min_eq_left (by omega), Nat.sub_self, List.take_zero,
      Nat.sub_eq_zero_of_le (by omega), List.take_zero]

/-- Bytes that cover all of a region. -/
theorem Receive.overlay_of_length_eq (region data : Bytes) (covers : data.length = region.length) :
    overlay region data = data := by
  rw [overlay, List.take_of_length_le (Nat.le_of_eq covers),
    List.drop_of_length_le (Nat.le_of_eq covers.symm), List.append_nil]

/-- Laid bytes reach no further than they are long. -/
theorem Receive.drop_overlay (region data : Bytes) {n : Nat} (behind : data.length ≤ n) :
    (overlay region data).drop n = region.drop n := by
  have front : (data.take region.length).drop n = [] := by
    rw [List.drop_eq_nil_iff, List.length_take]
    omega
  rw [overlay, List.drop_append, front, List.nil_append, List.drop_drop, List.length_take]
  by_cases short : region.length ≤ n
  · rw [List.drop_eq_nil_of_le short, List.drop_eq_nil_of_le (by omega)]
  · congr 1
    omega

/-! ## Chunks -/

namespace Chunk

variable (c : Chunk) (n : Nat)

@[simp]
theorem capacity_new (capacity : Nat) : (new capacity).capacity = capacity :=
  List.length_replicate

@[simp]
theorem freeSize_new (capacity : Nat) : (new capacity).freeSize = capacity := by
  simp [freeSize, Chunk.capacity, new]

/-- The next `n` bytes, as far as there are so many. -/
def next : Bytes := (c.memory.drop c.used).take n

theorem region?_of_le (enough : n ≤ c.freeSize) : c.region? n = some (c.next n) :=
  if_pos enough

theorem length_drop_used : (c.memory.drop c.used).length = c.freeSize := by
  rw [List.length_drop, freeSize, capacity]

theorem length_next (enough : n ≤ c.freeSize) : (c.next n).length = n := by
  rw [next, List.length_take, length_drop_used, Nat.min_eq_left enough]

/-- What lies behind the bytes given out, once a region of `n` bytes is written. -/
theorem drop_used_write (data : Bytes) :
    (c.write n data).memory.drop (c.write n data).used =
      Receive.overlay (c.memory.drop c.used) (data.take n) := by
  show (c.memory.take c.used ++ _).drop c.used = _
  exact List.drop_left' (List.length_take_of_le c.used_le)

@[simp]
theorem freeSize_write (data : Bytes) : (c.write n data).freeSize = c.freeSize := by
  rw [← length_drop_used, drop_used_write, Receive.length_overlay, length_drop_used]

theorem used_add_freeSize : c.used + c.freeSize = c.capacity := by
  have := c.used_le
  rw [freeSize, capacity]
  omega

@[simp]
theorem capacity_write (data : Bytes) : (c.write n data).capacity = c.capacity := by
  rw [← used_add_freeSize, freeSize_write, ← used_add_freeSize]
  rfl

theorem freeSize_close : (c.close n).freeSize = c.freeSize - min n c.freeSize := by
  simp only [freeSize, capacity, close]
  omega

/-- Of a written region the segment is a front. -/
theorem segment_write (data : Bytes) (enough : n ≤ c.freeSize) {k : Nat} (le : k ≤ n) :
    (c.write n data).segment k = (Receive.overlay (c.next n) data).take k := by
  have front : n ≤ (c.memory.drop c.used).length := by rwa [length_drop_used]
  rw [segment, freeSize_write, drop_used_write, Nat.min_eq_left (by omega), next,
    ← Receive.take_overlay_take _ _ _ front, List.take_take, Nat.min_eq_left le]

end Chunk

end ChatHall.Buffer
