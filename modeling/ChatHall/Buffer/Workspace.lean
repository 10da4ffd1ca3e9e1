/-
# A worker's send workspace

Each worker cuts its segments from a chunk of its own. A write reserves room,
fills it and closes it in one go; a chunk that is too small is replaced, and a
reservation beyond the chunk size gets a chunk of its own size. A write from
inside the filling of another one finds the workspace busy and gets memory of
its own, so that the outer reservation stays as it is.
-/

import ChatHall.Buffer.Chunk
import ChatHall.Wire.Frame

namespace ChatHall.Buffer

/-- The chunk of one worker and the size of the chunks to come. -/
structure Workspace where
  chunkSize : Nat := 8192
  chunk : Option Chunk := none
  busy : Bool := false

/-- A computation that may write segments, beside whatever else `m` does. -/
abbrev WorkT (m : Type → Type) := StateT Workspace m

abbrev Work := WorkT Id

namespace Workspace

variable {m : Type → Type} [Monad m]

/-- Sets the size of the chunks to come, at least one byte. -/
def setChunkSize (size : Nat) : WorkT m Unit := modify fun w => { w with chunkSize := max size 1 }

/-- The room left in the current chunk; nothing without a chunk or while a write is going on. -/
def freeSize? (w : Workspace) : Option Nat :=
  if w.busy then none else w.chunk.map Chunk.freeSize

/-- The current chunk if `reserve` bytes fit, and a new one otherwise. -/
def chunkFor (w : Workspace) (reserve : Nat) : Chunk :=
  match w.chunk with
  | some c => if c.freeSize < reserve then Chunk.new (max w.chunkSize reserve) else c
  | none => Chunk.new (max w.chunkSize reserve)

/-- Fills a reservation in a chunk: `fill` sees the reserved bytes and answers with
new contents for them and the number of bytes used. -/
def fillChunk (reserve : Nat) (fill : Bytes → WorkT m (Bytes × Nat)) (c : Chunk) :
    WorkT m (Bytes × Chunk) :=
  match c.region? reserve with
  | none => pure (c.segment 0, c.close 0)
  | some region => do
    let (contents, used) ← fill region
    let c := c.write reserve contents
    pure (c.segment (min used reserve), c.close (min used reserve))

/-- A filling that is given up on the way: what it has left in the reserved bytes
stays there, and none of them is used. -/
def spoilChunk (reserve : Nat) (fill : Bytes → WorkT m Bytes) (c : Chunk) :
    WorkT m (Unit × Chunk) :=
  match c.region? reserve with
  | none => pure ((), c)
  | some region => do
    let contents ← fill region
    pure ((), c.write reserve contents)

variable {α : Type}

/-- Hands out the chunk for a reservation and keeps what becomes of it. The chunk
stays in the workspace meanwhile, out of reach; a reservation made in this time
gets memory of its own, which is forgotten. -/
def lend (reserve : Nat) (body : Chunk → WorkT m (α × Chunk)) : WorkT m α := do
  let w ← get
  if w.busy then
    let (a, _) ← body (Chunk.new reserve)
    pure a
  else
    set { w with chunk := some (w.chunkFor reserve), busy := true }
    let (a, c) ← body (w.chunkFor reserve)
    modify fun w => { w with chunk := some c, busy := false }
    pure a

/-- Reserves `reserve` bytes, fills them and gives out those used as a segment. -/
def write (reserve : Nat) (fill : Bytes → WorkT m (Bytes × Nat)) : WorkT m Bytes :=
  lend reserve (fillChunk reserve fill)

/-- Reserves `reserve` bytes and fails while filling them. -/
def abandon (reserve : Nat) (fill : Bytes → WorkT m Bytes) : WorkT m Unit :=
  lend reserve (spoilChunk reserve fill)

/-- `data` laid over a region from `offset` on. -/
def put (offset : Nat) (data region : Bytes) : Bytes :=
  region.take offset ++ Receive.overlay (region.drop offset) data

/-- A segment that holds just these bytes. -/
def copy (data : Bytes) : WorkT m Bytes :=
  write data.length fun region => pure (put 0 data region, data.length)

def frame (id : UInt16) (payload : Bytes) : WorkT m Bytes :=
  let total := Wire.Frame.headerSize + payload.length
  write total fun region =>
    let region := put 0 (Bytes.ofNat 4 total) region
    let region := put 4 (Bytes.ofNat 2 id.toNat) region
    pure (put Wire.Frame.headerSize payload region, total)

def frameText (text : String) : WorkT m Bytes := frame Wire.Frame.jsonId (Text.Utf8.encode text)

def tagged (id : UInt16) (payload : Bytes) : WorkT m Bytes :=
  let total := 2 + payload.length
  write total fun region =>
    pure (put 2 payload (put 0 (Bytes.ofNat 2 id.toNat) region), total)

end Workspace

end ChatHall.Buffer
