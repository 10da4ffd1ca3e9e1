/-
# What waits in the receive buffer

Every operation on the receive buffer is described by what it does to the
waiting bytes and to the free room. Receiving appends to the waiting bytes,
consuming drops from their front, and compacting leaves them alone while it
gives back the room of the consumed ones. Beyond these equations no proof has
to look at cursors.
-/

import ChatHall.Buffer.Receive
import Mathlib.Tactic.Common

namespace ChatHall.Buffer.Receive

variable (b : Receive)

@[simp]
theorem length_waiting : b.waiting.length = b.dataSize := by
  have hr := b.read_le_write
  have hw := b.write_le_capacity
  simp only [waiting, List.length_take, List.length_drop, dataSize]
  omega

/-- Waiting bytes, free room and the bytes done with fill the memory. -/
theorem readPos_add_dataSize_add_freeSize :
    b.readPos + b.dataSize + b.freeSize = b.capacity := by
  have hr := b.read_le_write
  have hw := b.write_le_capacity
  simp only [dataSize, freeSize, capacity]
  omega

/-! ## An empty buffer -/

@[simp]
theorem waiting_new (capacity : Nat) : (new capacity).waiting = [] := by
  simp [new, waiting, dataSize]

@[simp]
theorem capacity_new (size : Nat) : (new size).capacity = size := by
  simp [new, capacity, Bytes.zeros]

/-! ## Making room -/

/-- Laying the waiting bytes over the front of the memory puts them first. -/
theorem take_overlay (region data : Bytes) (fits : data.length ≤ region.length) :
    (overlay region data).take data.length = data := by
  rw [overlay, List.take_of_length_le fits, List.take_left]

@[simp]
theorem waiting_compact : b.compact.waiting = b.waiting := by
  by_cases empty : b.dataSize = 0
  · have nothing : b.waiting = [] := by
      rw [← List.length_eq_zero_iff, length_waiting, empty]
    rw [nothing, compact, if_pos empty]
    rfl
  · have fits : b.waiting.length ≤ b.memory.length := by
      have := b.write_le_capacity
      rw [length_waiting, dataSize]
      omega
    have front := take_overlay b.memory b.waiting fits
    rw [length_waiting] at front
    rw [compact, if_neg empty]
    exact front

@[simp]
theorem capacity_compact : b.compact.capacity = b.capacity := by
  rw [compact]
  split
  · rfl
  · exact length_overlay _ _

@[simp]
theorem readPos_compact : b.compact.readPos = 0 := by
  rw [compact]
  split <;> rfl

@[simp]
theorem dataSize_compact : b.compact.dataSize = b.dataSize := by
  rw [← length_waiting, waiting_compact, length_waiting]

/-- After compacting, all room but that of the waiting bytes is free. -/
theorem dataSize_add_freeSize_compact : b.dataSize + b.compact.freeSize = b.capacity := by
  have total := b.compact.readPos_add_dataSize_add_freeSize
  rw [readPos_compact, dataSize_compact, capacity_compact] at total
  omega

/-! ## Receiving -/

/-- Receiving no more than there is room for succeeds and appends to the waiting bytes. -/
theorem commit?_store (data : Bytes) (fits : data.length ≤ b.freeSize) :
    ∃ after, (b.store data).commit? data.length = some after ∧
      after.waiting = b.waiting ++ data ∧ after.capacity = b.capacity := by
  obtain ⟨memory, readPos, writePos, hr, hw⟩ := b
  simp only [freeSize, capacity] at fits
  have room : data.length ≤ (memory.drop writePos).length := by
    rw [List.length_drop]
    omega
  have length : (memory.take writePos ++ overlay (memory.drop writePos) data).length =
      memory.length := by
    simp only [List.length_append, List.length_take, length_overlay, List.length_drop]
    omega
  have commits : data.length ≤
      (memory.take writePos ++ overlay (memory.drop writePos) data).length - writePos := by
    rw [length]
    exact fits
  refine ⟨_, dif_pos commits, ?_, length⟩
  have before : readPos ≤ (memory.take writePos).length := by
    rw [List.length_take]
    omega
  have split : writePos + data.length - readPos = (writePos - readPos) + data.length := by
    omega
  have old : ((memory.take writePos).drop readPos).length = writePos - readPos := by
    rw [List.length_drop, List.length_take]
    omega
  simp only [waiting, dataSize, store, free]
  rw [List.drop_append_of_le_length before, split, ← List.drop_take, ← old,
    List.take_length_add_append, take_overlay _ _ room]

/-! ## Consuming -/

/-- Consuming waiting bytes succeeds and drops them. -/
theorem consume?_of_le (n : Nat) (enough : n ≤ b.dataSize) :
    ∃ after, b.consume? n = some after ∧
      after.waiting = b.waiting.drop n ∧ after.capacity = b.capacity := by
  refine ⟨_, dif_pos enough, ?_, rfl⟩
  simp only [waiting, dataSize, List.drop_take, List.drop_drop]
  congr 1
  omega

/-! ## Any calls -/

/-- What is done with a buffer from outside. -/
inductive Call
  | store (data : Bytes)
  | commit (n : Nat)
  | consume (n : Nat)
  | compact
  deriving Repr, DecidableEq

/-- The buffer after a call, and whether the call is accepted. A refusal leaves it as it is. -/
def call : Call → Receive × Bool
  | .store data => (b.store data, true)
  | .commit n =>
    match b.commit? n with
    | some after => (after, true)
    | none => (b, false)
  | .consume n =>
    match b.consume? n with
    | some after => (after, true)
    | none => (b, false)
  | .compact => (b.compact, true)

def calls (made : List Call) : Receive := made.foldl (fun b c => (b.call c).1) b

/-- What a buffer of this capacity makes of the next call. -/
structure Serves (capacity : Nat) : Prop where
  capacity_eq : b.capacity = capacity
  ordered : b.readPos ≤ b.writePos ∧ b.writePos ≤ capacity
  /-- What is written is not there before it is counted as received. -/
  store (data : Bytes) :
    let after := (b.call (.store data)).1
    after.readPos = b.readPos ∧ after.writePos = b.writePos ∧ after.waiting = b.waiting ∧
      after.free = overlay b.free data
  commit (n : Nat) (room : n ≤ b.freeSize) :
    let (after, accepted) := b.call (.commit n)
    accepted = true ∧ after.readPos = b.readPos ∧ after.writePos = b.writePos + n ∧
      after.waiting = b.waiting ++ b.free.take n
  commit_refused (n : Nat) (short : b.freeSize < n) : b.call (.commit n) = (b, false)
  consume (n : Nat) (enough : n ≤ b.dataSize) :
    let (after, accepted) := b.call (.consume n)
    accepted = true ∧ after.readPos = b.readPos + n ∧ after.writePos = b.writePos ∧
      after.waiting = b.waiting.drop n
  consume_refused (n : Nat) (short : b.dataSize < n) : b.call (.consume n) = (b, false)
  /-- The room of the bytes done with comes back, and nothing is lost. -/
  compact :
    let after := (b.call .compact).1
    after.readPos = 0 ∧ after.waiting = b.waiting ∧ after.freeSize = b.freeSize + b.readPos

theorem length_take_writePos : (b.memory.take b.writePos).length = b.writePos :=
  List.length_take_of_le b.write_le_capacity

theorem free_store (data : Bytes) : (b.store data).free = overlay b.free data := by
  show (b.memory.take b.writePos ++ overlay b.free data).drop b.writePos = _
  exact List.drop_left' b.length_take_writePos

theorem waiting_store (data : Bytes) : (b.store data).waiting = b.waiting := by
  have := b.read_le_write
  have length := b.length_take_writePos
  have waits : ((b.memory.take b.writePos).drop b.readPos).length = b.dataSize := by
    rw [List.length_drop, length, dataSize]
  show ((b.memory.take b.writePos ++ overlay b.free data).drop b.readPos).take b.dataSize = _
  rw [List.drop_append_of_le_length (by omega), List.take_append_of_le_length (by omega),
    List.drop_take, ← dataSize, List.take_take, Nat.min_self, waiting]

/-- What is counted as received is what stands in the free memory. -/
theorem commit?_of_le (n : Nat) (room : n ≤ b.freeSize) :
    ∃ after, b.commit? n = some after ∧ after.readPos = b.readPos ∧
      after.writePos = b.writePos + n ∧ after.waiting = b.waiting ++ b.free.take n := by
  refine ⟨_, dif_pos room, rfl, rfl, ?_⟩
  have ordered := b.read_le_write
  have split : b.writePos + n - b.readPos = b.dataSize + n := by
    rw [dataSize]
    omega
  have behind : b.readPos + b.dataSize = b.writePos := by
    rw [dataSize]
    omega
  show (b.memory.drop b.readPos).take (b.writePos + n - b.readPos) = _
  rw [split, List.take_add, List.drop_drop, behind]
  rfl

theorem serves : b.Serves b.capacity where
  capacity_eq := rfl
  ordered := ⟨b.read_le_write, b.write_le_capacity⟩
  store data := ⟨rfl, rfl, b.waiting_store data, b.free_store data⟩
  commit n room := by
    obtain ⟨after, commits, readPos, writePos, waiting⟩ := b.commit?_of_le n room
    simp only [call, commits]
    exact ⟨trivial, readPos, writePos, waiting⟩
  commit_refused n short := by
    have refused : b.commit? n = none := dif_neg (Nat.not_le.2 short)
    simp only [call, refused]
  consume n enough := by
    obtain ⟨after, consumes, waiting, -⟩ := b.consume?_of_le n enough
    have readPos : after.readPos = b.readPos + n ∧ after.writePos = b.writePos := by
      rw [consume?, dif_pos enough] at consumes
      obtain rfl := Option.some.inj consumes
      exact ⟨rfl, rfl⟩
    simp only [call, consumes]
    exact ⟨trivial, readPos.1, readPos.2, waiting⟩
  consume_refused n short := by
    have refused : b.consume? n = none := dif_neg (Nat.not_le.2 short)
    simp only [call, refused]
  compact := by
    have before := b.readPos_add_dataSize_add_freeSize
    have after := b.dataSize_add_freeSize_compact
    refine ⟨b.readPos_compact, b.waiting_compact, ?_⟩
    show b.compact.freeSize = _
    omega

theorem capacity_call (c : Call) : (b.call c).1.capacity = b.capacity := by
  cases c with
  | store data =>
      have := b.write_le_capacity
      show (b.memory.take b.writePos ++ overlay b.free data).length = b.memory.length
      rw [List.length_append, List.length_take, length_overlay, free, List.length_drop]
      omega
  | commit n =>
      rw [call, commit?]
      split
      · next after commits =>
          split at commits
          · obtain rfl := Option.some.inj commits
            rfl
          · contradiction
      · rfl
  | consume n =>
      rw [call, consume?]
      split
      · next after consumes =>
          split at consumes
          · obtain rfl := Option.some.inj consumes
            rfl
          · contradiction
      · rfl
  | compact => exact b.capacity_compact

theorem capacity_calls (made : List Call) : (b.calls made).capacity = b.capacity := by
  induction made generalizing b with
  | nil => rfl
  | cons c later ih => exact (ih (b.call c).1).trans (b.capacity_call c)

/-- After any calls on a new buffer, the next one does as it should. -/
theorem serves_calls_new (capacity : Nat) (made : List Call) :
    ((new capacity).calls made).Serves capacity := by
  have same := (new capacity).capacity_calls made
  rw [capacity_new] at same
  have served := ((new capacity).calls made).serves
  rwa [same] at served

end ChatHall.Buffer.Receive
