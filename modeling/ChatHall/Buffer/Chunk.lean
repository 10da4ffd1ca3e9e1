/-
# Send chunks

A stretch of memory from which finished segments are cut one after the other.
The part before the offset belongs to the segments and is never written again;
room is reserved at the offset, written, and closed with the size really used.
-/

import ChatHall.Buffer.Receive

namespace ChatHall.Buffer

/-- Memory whose first `used` bytes have been given out. -/
structure Chunk where
  memory : Bytes
  used : Nat := 0
  used_le : used ≤ memory.length := by omega

namespace Chunk

def new (capacity : Nat) : Chunk where
  memory := List.replicate capacity 0

def capacity (c : Chunk) : Nat := c.memory.length

def freeSize (c : Chunk) : Nat := c.capacity - c.used

/-- The next `n` bytes, or a refusal if fewer are left. -/
def region? (c : Chunk) (n : Nat) : Option Bytes :=
  if n ≤ c.freeSize then some ((c.memory.drop c.used).take n) else none

/-- Writes `data`, cut to `n` bytes, over the next `n` bytes. -/
def write (c : Chunk) (n : Nat) (data : Bytes) : Chunk where
  memory := c.memory.take c.used ++ Receive.overlay (c.memory.drop c.used) (data.take n)
  used := c.used
  used_le := by
    have := c.used_le
    simp only [List.length_append, List.length_take, Receive.length_overlay, List.length_drop]
    omega

/-- The segment that `close n` gives out: the next `n` bytes, or all that are left. -/
def segment (c : Chunk) (n : Nat) : Bytes := (c.memory.drop c.used).take (min n c.freeSize)

/-- The chunk after `n` bytes, or all that are left, have been given out. -/
def close (c : Chunk) (n : Nat) : Chunk where
  memory := c.memory
  used := c.used + min n c.freeSize
  used_le := by
    have := c.used_le
    simp only [freeSize, capacity]
    omega

end Chunk

end ChatHall.Buffer
