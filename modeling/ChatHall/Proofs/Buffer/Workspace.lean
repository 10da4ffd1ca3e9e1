/-
# Segments of a shared workspace

The memory that a write is shown holds whatever earlier reservations have left
there, used or not, and a write inside another one takes a way of its own. What
comes out depends on none of it. An encoder covers every byte that it gives out,
and no write that is made while another one is going on reaches the chunk that
the other one fills.

The code that uses a workspace is a `Script`: a tree of calls, each branching on
what the call has answered. Everything is shown for every workspace, so that it
holds after every script, and for writes inside writes to any depth.
-/

import ChatHall.Buffer.Workspace
import ChatHall.Wire.Tagged
import ChatHall.Proofs.Buffer.Chunk

namespace ChatHall.Buffer

/-! ## Pieces in a region -/

namespace Workspace

theorem put_zero (data region : Bytes) : put 0 data region = Receive.overlay region data := rfl

/-- Two pieces put one behind the other are one piece. -/
theorem put_overlay (front data region : Bytes) (fits : front.length + data.length ≤ region.length) :
    put front.length data (Receive.overlay region front) =
      Receive.overlay region (front ++ data) := by
  have fitsFront : front.length ≤ region.length := by omega
  have fitsBoth : (front ++ data).length ≤ region.length := by rwa [List.length_append]
  have fitsBehind : data.length ≤ (region.drop front.length).length := by
    rw [List.length_drop]
    omega
  rw [put, Receive.overlay, Receive.overlay, Receive.overlay, List.take_of_length_le fitsFront,
    List.take_left, List.drop_left, List.take_of_length_le fitsBehind,
    List.take_of_length_le fitsBoth, List.drop_drop, List.length_append, List.append_assoc]

end Workspace

/-! ## One reservation -/

namespace Workspace

variable (w : Workspace) (reserve : Nat)

/-- The chunk that serves a reservation. -/
def lent : Chunk := if w.busy then Chunk.new reserve else w.chunkFor reserve

/-- The workspace while the reservation is open. -/
def inside : Workspace :=
  if w.busy then w else { w with chunk := some (w.chunkFor reserve), busy := true }

/-- The workspace after the reservation, where `c` has become of the chunk and
`after` of the workspace meanwhile. -/
def regained (c : Chunk) (after : Workspace) : Workspace :=
  if w.busy then after else { after with chunk := some c, busy := false }

/-- How much is free for a reservation once its chunk is chosen. -/
def room : Nat :=
  match w.freeSize? with
  | some free => if reserve ≤ free then free else max w.chunkSize reserve
  | none => max w.chunkSize reserve

theorem freeSize_lent (top : w.busy = false) : (w.lent reserve).freeSize = w.room reserve := by
  obtain ⟨size, chunk, busy⟩ := w
  cases top
  cases chunk with
  | none => simp [lent, chunkFor, room, freeSize?]
  | some c =>
      by_cases enough : reserve ≤ c.freeSize
      · simp [lent, chunkFor, room, freeSize?, enough, Nat.not_lt.2 enough]
      · simp [lent, chunkFor, room, freeSize?, enough, Nat.not_le.1 enough]

theorem le_room : reserve ≤ w.room reserve := by
  rw [room]
  split
  · split <;> omega
  · omega

/-- Whatever serves a reservation has room for it. -/
theorem le_freeSize_lent : reserve ≤ (w.lent reserve).freeSize := by
  cases top : w.busy with
  | false =>
      rw [freeSize_lent w reserve top]
      exact w.le_room reserve
  | true => simp [lent, top]

def shown : Bytes := (w.lent reserve).next reserve

theorem region?_lent : (w.lent reserve).region? reserve = some (w.shown reserve) :=
  Chunk.region?_of_le _ _ (w.le_freeSize_lent reserve)

theorem length_shown : (w.shown reserve).length = reserve :=
  Chunk.length_next _ _ (w.le_freeSize_lent reserve)

theorem run_lend {α : Type} (body : Chunk → Work (α × Chunk)) :
    (lend reserve body).run w =
      let r := (body (w.lent reserve)).run (w.inside reserve)
      (r.1.1, w.regained r.1.2 r.2) := by
  cases top : w.busy <;> simp [lend, lent, inside, regained, top] <;> rfl

/-- A write gives out the front of the region as the filling has left it. -/
theorem run_write (fill : Bytes → Work (Bytes × Nat)) :
    (write reserve fill).run w =
      let r := (fill (w.shown reserve)).run (w.inside reserve)
      let used := min r.1.2 reserve
      ((Receive.overlay (w.shown reserve) r.1.1).take used,
        w.regained (((w.lent reserve).write reserve r.1.1).close used) r.2) := by
  have segment (contents : Bytes) (used : Nat) :=
    (w.lent reserve).segment_write reserve contents (w.le_freeSize_lent reserve)
      (Nat.min_le_right used reserve)
  rw [write, run_lend]
  simp only [fillChunk, region?_lent]
  exact congrArg₂ Prod.mk (segment _ _) rfl

/-- A failed filling leaves its bytes in the chunk and takes none of it away. -/
theorem run_abandon (fill : Bytes → Work Bytes) :
    (abandon reserve fill).run w =
      let r := (fill (w.shown reserve)).run (w.inside reserve)
      ((), w.regained ((w.lent reserve).write reserve r.1) r.2) := by
  rw [abandon, run_lend]
  simp only [spoilChunk, region?_lent]
  rfl

/-- A filling that covers its whole region gives out just what it has put there. -/
theorem run_write_covering (data : Bytes) (fill : Bytes → Bytes) (length : data.length = reserve)
    (covers : fill (w.shown reserve) = Receive.overlay (w.shown reserve) data) :
    ((write reserve fun region => pure (fill region, reserve) : Work Bytes).run w).1 = data := by
  have whole := Receive.overlay_of_length_eq (w.shown reserve) data
    (length.trans (w.length_shown reserve).symm)
  rw [run_write]
  show (Receive.overlay _ (fill _)).take (min reserve reserve) = data
  rw [covers, whole, whole, Nat.min_self, ← length, List.take_length]

end Workspace

/-! ## The encoders -/

/-- What is encoded into a segment in one call. -/
inductive Encoding
  | copy (data : Bytes)
  | frame (id : UInt16) (payload : Bytes)
  | frameText (text : String)
  | tagged (id : UInt16) (payload : Bytes)

namespace Encoding

def work : Encoding → Work Bytes
  | copy data => Workspace.copy data
  | frame id payload => Workspace.frame id payload
  | frameText text => Workspace.frameText text
  | tagged id payload => Workspace.tagged id payload

/-- What is to come out, by the arguments alone. -/
def bytes : Encoding → Bytes
  | copy data => data
  | frame id payload => Wire.Frame.encode id payload
  | frameText text => Wire.Frame.encodeText text
  | tagged id payload => Wire.Tagged.encode id payload

variable (w : Workspace) (id : UInt16) (payload : Bytes)

theorem run_copy (data : Bytes) : ((Workspace.copy data : Work Bytes).run w).1 = data :=
  w.run_write_covering _ data (Workspace.put 0 data) rfl rfl

theorem run_tagged :
    ((Workspace.tagged id payload : Work Bytes).run w).1 = Wire.Tagged.encode id payload := by
  have total : (Wire.Tagged.encode id payload).length = 2 + payload.length := by
    simp [Wire.Tagged.encode]
  apply w.run_write_covering _ _ _ total
  exact Workspace.put_overlay (Bytes.ofNat 2 id.toNat) payload _ (by simp [w.length_shown])

theorem run_frame :
    ((Workspace.frame id payload : Work Bytes).run w).1 = Wire.Frame.encode id payload := by
  have total := Wire.Frame.length_encode id payload
  apply w.run_write_covering _ _ _ total
  have length := w.length_shown (Wire.Frame.headerSize + payload.length)
  generalize w.shown (Wire.Frame.headerSize + payload.length) = region at length ⊢
  let size := Bytes.ofNat 4 (Wire.Frame.headerSize + payload.length)
  let name := Bytes.ofNat 2 id.toNat
  have header : (size ++ name).length = Wire.Frame.headerSize := by
    simp [size, name, Wire.Frame.headerSize]
  have second : Workspace.put 4 name (Receive.overlay region size) = _ :=
    Workspace.put_overlay size name region (by rw [← List.length_append, header]; omega)
  have third := Workspace.put_overlay (size ++ name) payload region (by rw [header]; omega)
  rw [header, List.append_assoc] at third
  show Workspace.put _ payload (Workspace.put 4 name (Workspace.put 0 size region)) = _
  rw [Workspace.put_zero, second]
  exact third

theorem run_work (e : Encoding) : (e.work.run w).1 = e.bytes := by
  cases e with
  | copy data => exact run_copy w data
  | frame id payload => exact run_frame w id payload
  | frameText text => exact run_frame w Wire.Frame.jsonId (Text.Utf8.encode text)
  | tagged id payload => exact run_tagged w id payload

end Encoding

/-! ## Scripts -/

/-- What code does with a workspace up to the end of a filling, which leaves
`contents` in its region and reports `used` bytes of it. At every call it may go
on in one way or another by what the call answers. -/
inductive Script
  | leave (contents : Bytes) (used : Nat)
  | resize (size : Nat) (next : Script)
  | look (next : Option Nat → Nat → Script)
  | encode (e : Encoding) (next : Bytes → Script)
  | write (reserve : Nat) (fill next : Bytes → Script)
  | abandon (reserve : Nat) (fill : Bytes → Script) (next : Script)

namespace Script

def work : Script → Work (Bytes × Nat)
  | leave contents used => pure (contents, used)
  | resize size next => do
    Workspace.setChunkSize size
    next.work
  | look next => do
    let w ← get
    (next w.freeSize? w.chunkSize).work
  | encode e next => do
    let segment ← e.work
    (next segment).work
  | write reserve fill next => do
    let segment ← Workspace.write reserve fun region => (fill region).work
    (next segment).work
  | abandon reserve fill next => do
    Workspace.abandon reserve fun region => do
      let (contents, _) ← (fill region).work
      pure contents
    next.work

def after (s : Script) (w : Workspace) : Workspace := (s.work.run w).2

end Script

namespace Workspace

/-- Another workspace is as far as a busy one as this one: the two are equally
busy, and if they are, the chunk lent is the same. -/
structure Keeps (w after : Workspace) : Prop where
  busy : after.busy = w.busy
  chunk : w.busy = true → after.chunk = w.chunk

theorem Keeps.refl (w : Workspace) : Keeps w w := ⟨rfl, fun _ => rfl⟩

theorem Keeps.trans {w v u : Workspace} (first : Keeps w v) (second : Keeps v u) : Keeps w u where
  busy := second.busy.trans first.busy
  chunk busy := (second.chunk (first.busy.trans busy)).trans (first.chunk busy)

/-- A reservation keeps what the workspace has lent before if the filling keeps its chunk. -/
theorem Keeps.regained {w after : Workspace} {reserve : Nat} (c : Chunk)
    (kept : Keeps (w.inside reserve) after) : Keeps w (w.regained c after) := by
  cases top : w.busy with
  | false => exact ⟨by simp [Workspace.regained, top], fun busy => by simp [top] at busy⟩
  | true =>
      have same : w.inside reserve = w := if_pos top
      rw [same] at kept
      rwa [Workspace.regained, if_pos top]

theorem Keeps.write {w : Workspace} {reserve : Nat} {fill : Bytes → Work (Bytes × Nat)}
    (kept : ∀ region, Keeps (w.inside reserve) ((fill region).run (w.inside reserve)).2) :
    Keeps w ((write reserve fill).run w).2 := by
  rw [run_write]
  exact .regained _ (kept _)

theorem Keeps.abandon {w : Workspace} {reserve : Nat} {fill : Bytes → Work Bytes}
    (kept : ∀ region, Keeps (w.inside reserve) ((fill region).run (w.inside reserve)).2) :
    Keeps w ((abandon reserve fill).run w).2 := by
  rw [run_abandon]
  exact .regained _ (kept _)

theorem keeps_encoding (w : Workspace) (e : Encoding) : Keeps w (e.work.run w).2 := by
  cases e <;> exact Keeps.write fun _ => .refl _

/-- No script reaches the chunk that is lent while it runs. -/
theorem keeps_script (w : Workspace) (s : Script) : Keeps w (s.after w) := by
  induction s generalizing w with
  | leave contents used => exact .refl w
  | resize size next ih =>
      have resized : Keeps w { w with chunkSize := max size 1 } := ⟨rfl, fun _ => rfl⟩
      exact resized.trans (ih _)
  | look next ih => exact ih _ _ w
  | encode e next ih => exact (keeps_encoding w e).trans (ih _ _)
  | write reserve fill next ihFill ihNext =>
      exact (Keeps.write fun region => ihFill region _).trans (ihNext _ _)
  | abandon reserve fill next ihFill ihNext =>
      exact (Keeps.abandon fun region => ihFill region _).trans (ihNext _)

/-! ## Isolation -/

theorem freeSize_regained (w after : Workspace) (reserve : Nat) (contents : Bytes) (used : Nat)
    (top : w.busy = false) (le : used ≤ reserve) :
    (w.regained (((w.lent reserve).write reserve contents).close used) after).freeSize? =
      some (w.room reserve - used) := by
  have enough := w.le_room reserve
  rw [regained, top]
  show some (((w.lent reserve).write reserve contents).close used).freeSize = _
  rw [Chunk.freeSize_close, Chunk.freeSize_write, freeSize_lent w reserve top,
    Nat.min_eq_left (by omega)]

/-- What the users of a workspace get from it, whoever has used it before or uses
it around them. -/
structure Isolates (w : Workspace) : Prop where
  /-- Whatever has been done, an encoder gives out what its arguments say. -/
  encodes (history : Script) (e : Encoding) : (e.work.run (history.after w)).1 = e.bytes
  /-- A reservation is never refused. The filling is shown as many bytes as were
  reserved, and what it reports as used is given out as it has left it. -/
  writes (reserve : Nat) (fill : Bytes → Work (Bytes × Nat)) :
    ∃ region, (w.lent reserve).region? reserve = some region ∧ region.length = reserve ∧
      ((write reserve fill).run w).1 =
        let filled := (fill region).run (w.inside reserve)
        (Receive.overlay region filled.1.1).take (min filled.1.2 reserve)
  /-- While a reservation is open, whatever is done leaves its chunk as it is, the
  region and the free room with it. -/
  holds (reserve : Nat) (s : Script) :
    w.busy = false → (s.after (w.inside reserve)).chunk = some (w.lent reserve)
  /-- Inside a reservation, nothing that is done changes the chunk of the workspace. -/
  nests (s : Script) : w.busy = true → (s.after w).chunk = w.chunk
  /-- Every reservation ends with the call that has made it. -/
  ends (s : Script) : (s.after w).busy = w.busy
  /-- A write outside all others takes what it gives out from the room of its
  chunk: from the free room if the reservation fits there, and from a new chunk of
  the usual size, or of the size reserved if that is more, otherwise. -/
  frees (reserve : Nat) (fill : Bytes → Work (Bytes × Nat)) :
    w.busy = false →
      let written := (write reserve fill).run w
      written.1.length ≤ w.room reserve ∧
        written.2.freeSize? = some (w.room reserve - written.1.length)

/-- No workspace lets what one of its users has left reach the segments of another. -/
theorem isolates (w : Workspace) : w.Isolates where
  encodes history e := e.run_work (history.after w)
  writes reserve fill := by
    refine ⟨w.shown reserve, w.region?_lent reserve, w.length_shown reserve, ?_⟩
    rw [run_write]
  holds reserve s top := by
    have inside : w.inside reserve = { w with chunk := some (w.lent reserve), busy := true } := by
      simp [Workspace.inside, lent, top]
    rw [inside]
    exact (keeps_script _ s).chunk rfl
  nests s busy := (keeps_script w s).chunk busy
  ends s := (keeps_script w s).busy
  frees reserve fill top := by
    rw [run_write]
    generalize (fill (w.shown reserve)).run (w.inside reserve) = filled
    have le := Nat.min_le_right filled.1.2 reserve
    have length : ((Receive.overlay (w.shown reserve) filled.1.1).take
        (min filled.1.2 reserve)).length = min filled.1.2 reserve := by
      rw [List.length_take, Receive.length_overlay, length_shown, Nat.min_eq_left le]
    have enough := w.le_room reserve
    refine ⟨by rw [length]; omega, ?_⟩
    rw [length]
    exact freeSize_regained w _ reserve _ _ top le

/-- A filling that leaves its region as it is shows what the last one has left there. -/
example :
    let leave : Work Bytes := write 3 fun _ => pure ([1, 2, 3], 1)
    let look : Work Bytes := write 2 fun region => pure (region, 2)
    ((leave >>= fun _ => look).run { chunkSize := 4 }).1 = [2, 3] := by
  decide +kernel

end Workspace

end ChatHall.Buffer
