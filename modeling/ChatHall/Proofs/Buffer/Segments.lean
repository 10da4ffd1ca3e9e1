/-
# Segments of one array

A chunk and the segments cut from it share one array of bytes. What is free of it is
known in two ways: as the stretch in which reservations are made and from which
segments are cut, and as what the count of the bytes given out leaves of the capacity.
The two agree, however much is reserved and however little or much of it is closed. So
the segments lie one behind the other, and no byte of one of them is written again.
-/

import ChatHall.Proofs.Buffer.Chunk

namespace ChatHall.Buffer

/-! ## Stretches -/

/-- A stretch of an array. -/
structure Stretch where
  start : Nat
  length : Nat
  deriving Repr, DecidableEq

namespace Stretch

def stop (s : Stretch) : Nat := s.start + s.length

def read (s : Stretch) (memory : Bytes) : Bytes := (memory.drop s.start).take s.length

/-- The array after `data`, cut to the stretch, is written over its front. -/
def fill (s : Stretch) (memory data : Bytes) : Bytes :=
  memory.take s.start ++ Receive.overlay (memory.drop s.start) (data.take s.length)

variable {s : Stretch} {memory : Bytes}

/-- A stretch holds the same in two arrays that agree as far as it reaches. -/
theorem read_congr {other : Bytes} {n : Nat} (within : s.stop ≤ n)
    (same : memory.take n = other.take n) : s.read memory = s.read other := by
  have front (array : Bytes) : s.read array = ((array.take n).drop s.start).take s.length := by
    rw [stop] at within
    rw [read, List.drop_take, List.take_take, Nat.min_eq_left (by omega)]
  rw [front, front, same]

section Fill

variable (within : s.stop ≤ memory.length) (data : Bytes)

include within

theorem length_take_start : (memory.take s.start).length = s.start :=
  List.length_take_of_le (Nat.le_trans (Nat.le_add_right _ _) within)

theorem take_fill : (s.fill memory data).take s.start = memory.take s.start := by
  rw [fill]
  exact List.take_left' (length_take_start within)

theorem drop_start_fill :
    (s.fill memory data).drop s.start =
      Receive.overlay (memory.drop s.start) (data.take s.length) := by
  rw [fill]
  exact List.drop_left' (length_take_start within)

theorem read_fill : s.read (s.fill memory data) = Receive.overlay (s.read memory) data := by
  have front : s.length ≤ (memory.drop s.start).length := by
    rw [stop] at within
    rw [List.length_drop]
    omega
  rw [read, drop_start_fill within, Receive.take_overlay_take _ _ _ front, read]

theorem drop_fill : (s.fill memory data).drop s.stop = memory.drop s.stop := by
  have cut : (data.take s.length).length ≤ s.length := List.length_take_le ..
  rw [stop, ← List.drop_drop, drop_start_fill within, Receive.drop_overlay _ _ cut, List.drop_drop]

end Fill

end Stretch

/-- The stretches lie one behind the other, from `a` to `b`. -/
inductive Adjoin : (a : Nat) → List Stretch → (b : Nat) → Prop
  | nil (a : Nat) : Adjoin a [] a
  | cons (s : Stretch) (rest : List Stretch) (b : Nat) (later : Adjoin s.stop rest b) :
      Adjoin s.start (s :: rest) b

namespace Adjoin

variable {a b : Nat} {stretches : List Stretch}

theorem concat (adjoin : Adjoin a stretches b) (n : Nat) :
    Adjoin a (stretches ++ [⟨b, n⟩]) (b + n) := by
  induction adjoin with
  | nil a => exact .cons ⟨a, n⟩ [] _ (.nil _)
  | cons s rest b later ih => exact .cons s _ _ ih

theorem le (adjoin : Adjoin a stretches b) : a ≤ b := by
  induction adjoin with
  | nil a => exact Nat.le_refl a
  | cons s rest b later ih => exact Nat.le_trans (Nat.le_add_right _ _) ih

theorem within (adjoin : Adjoin a stretches b) : ∀ s ∈ stretches, a ≤ s.start ∧ s.stop ≤ b := by
  induction adjoin with
  | nil a => exact fun s mem => absurd mem List.not_mem_nil
  | cons s rest b later ih =>
      intro t mem
      rcases List.mem_cons.1 mem with rfl | mem
      · exact ⟨Nat.le_refl _, later.le⟩
      · exact ⟨Nat.le_trans (Nat.le_add_right _ _) (ih t mem).1, (ih t mem).2⟩

theorem disjoint (adjoin : Adjoin a stretches b) :
    stretches.Pairwise fun s t => s.stop ≤ t.start := by
  induction adjoin with
  | nil a => exact .nil
  | cons s rest b later ih => exact .cons (fun t mem => (later.within t mem).1) ih

/-- Read one after the other, the stretches give all that lies between their ends. -/
theorem flatten_read (adjoin : Adjoin a stretches b) (memory : Bytes) :
    (stretches.map fun s => s.read memory).flatten = (memory.drop a).take (b - a) := by
  induction adjoin with
  | nil a => rw [Nat.sub_self, List.take_zero, List.map_nil, List.flatten_nil]
  | cons s rest b later ih =>
      have split : b - s.start = s.length + (b - s.stop) := by
        have := later.le
        rw [Stretch.stop] at *
        omega
      rw [List.map_cons, List.flatten_cons, ih, split, List.take_add, List.drop_drop]
      rfl

end Adjoin

/-! ## Sharing an array -/

/-- An array and the stretches of it that are in use. The capacity and the number of the bytes given
out are kept apart from them. -/
structure Shared where
  memory : Bytes
  /-- What has not been given out. -/
  free : Stretch
  /-- The segments given out, the first one first. -/
  given : List Stretch := []
  capacity : Nat
  useOffset : Nat := 0

/-- What can be done with a chunk. -/
inductive Use
  /-- Reserves `n` bytes and, unless they are refused, leaves `data` in them. -/
  | reserve (n : Nat) (data : Bytes)
  /-- Gives out `n` bytes, or all there are. -/
  | close (n : Nat)
  deriving Repr, DecidableEq

namespace Shared

def new (capacity : Nat) : Shared where
  memory := List.replicate capacity 0
  free := ⟨0, capacity⟩
  capacity := capacity

def freeSize (b : Shared) : Nat := b.free.length

/-- The front of what is free, or a refusal if it is too short. -/
def open? (b : Shared) (n : Nat) : Option Stretch :=
  if n > b.freeSize then none else some ⟨b.free.start, n⟩

/-- Cuts a segment from the front of what is free. -/
def close (b : Shared) (n : Nat) : Shared :=
  let used := min n b.freeSize
  { b with
    free := ⟨b.free.start + used, b.freeSize - used⟩
    given := b.given ++ [⟨b.free.start, used⟩]
    useOffset := b.useOffset + used }

def use (b : Shared) : Use → Shared
  | .reserve n data =>
    match b.open? n with
    | none => b
    | some region => { b with memory := region.fill b.memory data }
  | .close n => b.close n

def after (b : Shared) (uses : List Use) : Shared := uses.foldl use b

end Shared

namespace Chunk

def use (c : Chunk) : Use → Chunk
  | .reserve n data =>
    match c.region? n with
    | none => c
    | some _ => c.write n data
  | .close n => c.close n

def after (c : Chunk) (uses : List Use) : Chunk := uses.foldl use c

/-- Nothing is taken back. -/
theorem used_le_use (c : Chunk) (u : Use) : c.used ≤ (c.use u).used := by
  cases u with
  | reserve n data =>
      rw [use]
      split
      · exact Nat.le_refl _
      · exact Nat.le_refl _
  | close n => exact Nat.le_add_right _ _

theorem capacity_use (c : Chunk) (u : Use) : (c.use u).capacity = c.capacity := by
  cases u with
  | reserve n data =>
      rw [use]
      split
      · rfl
      · exact c.capacity_write n data
  | close n => rfl

theorem capacity_after (c : Chunk) (uses : List Use) : (c.after uses).capacity = c.capacity := by
  induction uses generalizing c with
  | nil => rfl
  | cons u uses ih => exact (ih (c.use u)).trans (c.capacity_use u)

end Chunk

/-! ## One and the same bookkeeping -/

/-- The array of a chunk is shared so. -/
structure Shared.Matches (b : Shared) (c : Chunk) : Prop where
  memory : b.memory = c.memory
  free : b.free = ⟨c.used, c.freeSize⟩
  capacity : b.capacity = c.capacity
  useOffset : b.useOffset = c.used
  given : Adjoin 0 b.given c.used

namespace Shared

variable {b : Shared} {c : Chunk}

theorem matches_new (capacity : Nat) : (new capacity).Matches (Chunk.new capacity) where
  memory := rfl
  free := by
    rw [Chunk.freeSize_new]
    rfl
  capacity := (Chunk.capacity_new capacity).symm
  useOffset := rfl
  given := .nil 0

namespace Matches

variable (m : b.Matches c)

include m

theorem freeSize : b.freeSize = c.freeSize := by rw [Shared.freeSize, m.free]

theorem open?_of_le {n : Nat} (enough : n ≤ c.freeSize) : b.open? n = some ⟨c.used, n⟩ := by
  rw [open?, if_neg (by rw [m.freeSize]; omega), m.free]

theorem open?_of_lt {n : Nat} (short : c.freeSize < n) : b.open? n = none :=
  if_pos (by rwa [m.freeSize])

/-- A reservation lies inside the array. -/
theorem region_within {n : Nat} (enough : n ≤ c.freeSize) :
    (Stretch.mk c.used n).stop ≤ b.memory.length := by
  have used := c.used_le
  rw [Chunk.freeSize, Chunk.capacity] at enough
  rw [m.memory]
  show c.used + n ≤ c.memory.length
  omega

theorem use_of_le {n : Nat} (enough : n ≤ c.freeSize) (data : Bytes) :
    b.use (.reserve n data) = { b with memory := Stretch.fill ⟨c.used, n⟩ b.memory data } := by
  rw [Shared.use, m.open?_of_le enough]

theorem use_of_lt {n : Nat} (short : c.freeSize < n) (data : Bytes) :
    b.use (.reserve n data) = b := by
  rw [Shared.use, m.open?_of_lt short]

theorem use (u : Use) : (b.use u).Matches (c.use u) := by
  cases u with
  | reserve n data =>
      by_cases enough : n ≤ c.freeSize
      · rw [m.use_of_le enough, Chunk.use, c.region?_of_le n enough]
        refine ⟨?_, ?_, ?_, m.useOffset, m.given⟩
        · show Stretch.fill _ b.memory data = _
          rw [m.memory]
          rfl
        · show b.free = _
          rw [m.free, Chunk.freeSize_write]
          rfl
        · rw [Chunk.capacity_write]
          exact m.capacity
      · have short := Nat.not_le.1 enough
        rw [m.use_of_lt short, Chunk.use, Chunk.region?, if_neg enough]
        exact m
  | close n =>
      refine ⟨m.memory, ?_, m.capacity, ?_, ?_⟩
      · show Stretch.mk (b.free.start + min n b.freeSize) (b.freeSize - min n b.freeSize) = _
        rw [m.freeSize, m.free, ← c.freeSize_close]
        rfl
      · show b.useOffset + min n b.freeSize = _
        rw [m.freeSize, m.useOffset]
        rfl
      · show Adjoin 0 (b.given ++ [⟨b.free.start, min n b.freeSize⟩]) (c.used + min n c.freeSize)
        rw [m.freeSize, m.free]
        exact m.given.concat _

theorem after (uses : List Use) : (b.after uses).Matches (c.after uses) := by
  induction uses generalizing b c with
  | nil => exact m
  | cons u uses ih => exact ih (m.use u)

/-! ### What is given out stays as it is -/

/-- One use changes none of the bytes given out before. -/
theorem take_memory_use (u : Use) : (b.use u).memory.take c.used = b.memory.take c.used := by
  cases u with
  | reserve n data =>
      by_cases enough : n ≤ c.freeSize
      · rw [m.use_of_le enough]
        exact Stretch.take_fill (m.region_within enough) data
      · rw [m.use_of_lt (Nat.not_le.1 enough)]
  | close n => rfl

theorem take_memory_after (uses : List Use) {n : Nat} (given : n ≤ c.used) :
    (b.after uses).memory.take n = b.memory.take n := by
  induction uses generalizing b c with
  | nil => rfl
  | cons u uses ih =>
      have later := ih (m.use u) (Nat.le_trans given (c.used_le_use u))
      have now := congrArg (List.take n) (m.take_memory_use u)
      rw [List.take_take, List.take_take, Nat.min_eq_left given] at now
      exact later.trans now

end Matches

end Shared

/-! ## What is promised -/

/-- What is promised of an array of `capacity` bytes, shared as in `b`, and of its chunk `c`. -/
structure Orderly (capacity : Nat) (b : Shared) (c : Chunk) : Prop where
  size : b.memory.length = capacity ∧ b.capacity = capacity
  /-- What has been given out and what is free make up the capacity. -/
  balances : b.useOffset + b.freeSize = capacity
  /-- A reservation gets just the bytes behind those given out, if there are so many. -/
  opens (n : Nat) : b.open? n = if n ≤ b.freeSize then some ⟨b.useOffset, n⟩ else none
  /-- What is written to a reservation stays in it. -/
  writes (n : Nat) (data : Bytes) :
    n ≤ b.freeSize →
      let region : Stretch := ⟨b.useOffset, n⟩
      let written := (b.use (.reserve n data)).memory
      written.take region.start = b.memory.take region.start ∧
        region.read written = Receive.overlay (region.read b.memory) data ∧
        written.drop region.stop = b.memory.drop region.stop
  /-- A refused one leaves no trace. -/
  refuses (n : Nat) (data : Bytes) : b.freeSize < n → b.use (.reserve n data) = b
  /-- Closing gives out the next bytes: as many as it is told, or all there are. -/
  closes (n : Nat) :
    (b.use (.close n)).given = b.given ++ [⟨b.useOffset, min n b.freeSize⟩] ∧
      (b.use (.close n)).useOffset = b.useOffset + min n b.freeSize
  /-- The segments given out lie one behind the other from the front of the array on. -/
  adjoins : Adjoin 0 b.given b.useOffset
  disjoint : b.given.Pairwise fun s t => s.stop ≤ t.start
  covers : (b.given.map fun s => s.read b.memory).flatten = b.memory.take b.useOffset
  /-- Nothing that is done later changes a byte of them. -/
  final (later : List Use) : ∀ s ∈ b.given, s.read (b.after later).memory = s.read b.memory
  /-- The chunk keeps the same account and shows the same bytes. -/
  account : c.memory = b.memory ∧ c.used = b.useOffset ∧ c.freeSize = b.freeSize ∧
    c.capacity = b.capacity
  regions (n : Nat) : c.region? n = (b.open? n).map fun s => s.read b.memory
  segments (n : Nat) : c.segment n = Stretch.read ⟨b.useOffset, min n b.freeSize⟩ b.memory

theorem Shared.Matches.orderly {b : Shared} {c : Chunk} (m : b.Matches c) :
    Orderly c.capacity b c where
  size := ⟨congrArg List.length m.memory, m.capacity⟩
  balances := by rw [m.useOffset, m.freeSize, c.used_add_freeSize]
  opens n := by
    rw [m.freeSize, m.useOffset]
    split
    · next enough => exact m.open?_of_le enough
    · next short => exact m.open?_of_lt (Nat.not_le.1 short)
  writes n data enough := by
    rw [m.freeSize] at enough
    have within := m.region_within enough
    rw [m.useOffset, m.use_of_le enough]
    exact ⟨Stretch.take_fill within data, Stretch.read_fill within data,
      Stretch.drop_fill within data⟩
  refuses n data short := m.use_of_lt (by rwa [m.freeSize] at short) data
  closes n := by
    refine ⟨?_, rfl⟩
    show b.given ++ [⟨b.free.start, min n b.freeSize⟩] = _
    rw [m.free, m.useOffset]
  adjoins := m.useOffset ▸ m.given
  disjoint := m.given.disjoint
  covers := by rw [m.given.flatten_read, m.useOffset, Nat.sub_zero, List.drop_zero]
  final later s mem := by
    have within := (m.given.within s mem).2
    exact Stretch.read_congr within (m.take_memory_after later (Nat.le_refl _))
  account := ⟨m.memory.symm, m.useOffset.symm, m.freeSize.symm, m.capacity.symm⟩
  regions n := by
    by_cases enough : n ≤ c.freeSize
    · rw [m.open?_of_le enough, c.region?_of_le n enough, m.memory]
      rfl
    · rw [m.open?_of_lt (Nat.not_le.1 enough), Chunk.region?, if_neg enough]
      rfl
  segments n := by
    rw [m.useOffset, m.freeSize, m.memory]
    rfl

/-- Whatever is done with a chunk, the segments cut from it are in order and stay as they are. -/
theorem orderly_after (capacity : Nat) (uses : List Use) :
    Orderly capacity ((Shared.new capacity).after uses) ((Chunk.new capacity).after uses) := by
  have orderly := ((Shared.matches_new capacity).after uses).orderly
  rwa [Chunk.capacity_after, Chunk.capacity_new] at orderly

/-- More is closed than was reserved, then more reserved than there is, and all of it closed. -/
example :
    let b := (Shared.new 6).after [.reserve 2 [1, 2, 3], .close 3, .reserve 9 [4], .close 9]
    b.given = [⟨0, 3⟩, ⟨3, 3⟩] ∧ b.memory = [1, 2, 0, 0, 0, 0] := by
  decide

end ChatHall.Buffer
