/-
# The receive buffer

A fixed stretch of memory with two cursors. What has been received and not yet
consumed lies between them, free room lies behind the second:

    done with | waiting | free
    0     readPos   writePos   capacity

Moving the waiting bytes to the front makes the room before them free again.
-/

import ChatHall.Bytes

namespace ChatHall.Buffer

/-- Memory with a read and a write cursor. -/
structure Receive where
  memory : Bytes
  readPos : Nat := 0
  writePos : Nat := 0
  read_le_write : readPos ≤ writePos := by omega
  write_le_capacity : writePos ≤ memory.length := by omega

namespace Receive

def new (capacity : Nat) : Receive where
  memory := Bytes.zeros capacity

def capacity (b : Receive) : Nat := b.memory.length

def dataSize (b : Receive) : Nat := b.writePos - b.readPos

def freeSize (b : Receive) : Nat := b.capacity - b.writePos

def waiting (b : Receive) : Bytes := (b.memory.drop b.readPos).take b.dataSize

/-- The memory behind the waiting bytes, whatever it holds. -/
def free (b : Receive) : Bytes := b.memory.drop b.writePos

/-- `data` laid over the front of `region`, cut to its length. -/
def overlay (region data : Bytes) : Bytes :=
  data.take region.length ++ region.drop data.length

theorem length_overlay (region data : Bytes) : (overlay region data).length = region.length := by
  simp only [overlay, List.length_append, List.length_take, List.length_drop]
  omega

/-- Copies as much of `data` as fits into the free memory; the cursors stay. -/
def store (b : Receive) (data : Bytes) : Receive where
  memory := b.memory.take b.writePos ++ overlay b.free data
  readPos := b.readPos
  writePos := b.writePos
  read_le_write := b.read_le_write
  write_le_capacity := by
    have := b.write_le_capacity
    simp only [List.length_append, List.length_take, length_overlay, free, List.length_drop]
    omega

/-- Counts `n` bytes of the free memory as received, or refuses if it is smaller. -/
def commit? (b : Receive) (n : Nat) : Option Receive :=
  if h : n ≤ b.freeSize then
    some { b with
      writePos := b.writePos + n
      read_le_write := by have := b.read_le_write; omega
      write_le_capacity := by
        have := b.write_le_capacity
        simp only [freeSize, capacity] at h
        omega }
  else none

/-- Counts `n` waiting bytes as consumed, or refuses if there are fewer. -/
def consume? (b : Receive) (n : Nat) : Option Receive :=
  if h : n ≤ b.dataSize then
    some { b with
      readPos := b.readPos + n
      read_le_write := by
        have := b.read_le_write
        simp only [dataSize] at h
        omega }
  else none

/-- Moves the waiting bytes to the front; the bytes behind them stay as they
are. Without waiting bytes only the cursors move. -/
def compact (b : Receive) : Receive :=
  if b.dataSize = 0 then { memory := b.memory }
  else
    { memory := overlay b.memory b.waiting
      writePos := b.dataSize
      write_le_capacity := by
        have := b.write_le_capacity
        simp only [length_overlay, dataSize]
        omega }

end Receive

end ChatHall.Buffer
