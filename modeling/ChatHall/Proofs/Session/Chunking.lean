/-
# Cuts in the stream do not matter

The receive loop gets a stream in reads that the socket cuts as it likes, and
keeps what it cannot judge yet in a buffer as large as the largest frame. What
it has handed over after some reads is what one read of all their bytes hands
over, and what waits in the buffer is what that read left. What is left is
shorter than the buffer, so there is always room for a further byte.
-/

import ChatHall.Net.Settings
import ChatHall.Proofs.Buffer.Receive
import ChatHall.Proofs.Wire.Resumption
import ChatHall.Proofs.Wire.Stream
import ChatHall.Session.Receiver

namespace ChatHall.Session

open ChatHall.Wire (Halt Intake Limits Packet)

/-! ## The hook and the reads -/

/-- The hook that reads the waiting bytes as frames and remembers the packets, latest
first. `accept` judges a packet by all packets up to it, itself first. -/
def gather (limits : Limits) (accept : List Packet → Except Refusal Unit)
    (seen : List Packet) (buffer : Bytes) : List Packet × Verdict :=
  let intake := Wire.Frame.read limits (fun new => accept (new ++ seen)) buffer
  (intake.packets.reverse ++ seen, verdictOf intake)

/-- The end that a stopped read puts to the receive loop. -/
def Ending.ofHalt : Halt Refusal → Ending
  | .fault f => .failed (.ofFault f)
  | .refused (.error e) => .failed e
  | .refused (.panic p) => .panicked p

namespace Receiver

/-- Whether a socket can deliver these reads: each brings something, and no more than the
buffer has room for when it comes. After the end of the loop nothing is read. -/
def Paced {σ : Type} (hook : σ → Bytes → σ × Verdict) : σ → Receiver → List Bytes → Prop
  | _, _, [] => True
  | s, r, data :: later =>
    match r.prepare with
    | .error _ => True
    | .ok ready =>
      data ≠ [] ∧ data.length ≤ ready.buffer.freeSize ∧
        match turn hook s r data with
        | (_, .error _) => True
        | (s, .ok r) => Paced hook s r later

/-! ## One turn -/

variable {limits : Limits} {accept : List Packet → Except Refusal Unit}

/-- The state of the loop after the bytes `got`: as if they had been read at once. -/
structure Caught (limits : Limits) (accept : List Packet → Except Refusal Unit)
    (got : Bytes) (seen : List Packet) (r : Receiver) : Prop where
  capacity_eq : r.buffer.capacity = limits.maxFrameSize
  received_eq : r.bytesReceived = got.length
  read_eq : ∃ n, Wire.Frame.read limits accept got = ⟨seen.reverse, .ok n⟩ ∧
    r.buffer.waiting = got.drop n

theorem caught_new : Caught limits accept [] [] (new limits.maxFrameSize) where
  capacity_eq := Buffer.Receive.capacity_new _
  received_eq := rfl
  read_eq := by
    refine ⟨0, ?_, Buffer.Receive.waiting_new _⟩
    rw [Wire.Frame.read, Wire.Frame.readFrom,
      Wire.Frame.front_of_length_lt limits (by simp [Wire.Frame.headerSize])]

variable {got : Bytes} {seen : List Packet} {r : Receiver}

/-- What waits is shorter than the buffer, so the loop goes on and has room. -/
theorem Caught.prepare (h : Caught limits accept got seen r)
    (header : Wire.Frame.headerSize ≤ limits.maxFrameSize) :
    ∃ ready, r.prepare = .ok ready ∧ 0 < ready.buffer.freeSize ∧
      Caught limits accept got seen ready := by
  obtain ⟨n, hread, hwaiting⟩ := h.read_eq
  have left := (Wire.Frame.front_drop_of_readFrom_ok (congrArg Intake.outcome hread)).2.2
  have short := Wire.Frame.length_lt_of_incomplete left
  rw [Nat.sub_zero, ← hwaiting, Buffer.Receive.length_waiting] at short
  have total := r.buffer.dataSize_add_freeSize_compact
  have capacity := h.capacity_eq
  have room : r.buffer.compact.freeSize ≠ 0 := by omega
  refine ⟨{ r with buffer := r.buffer.compact }, ?_, Nat.pos_of_ne_zero room, ?_⟩
  · rw [Receiver.prepare, if_neg room]
  · exact {
      capacity_eq := by rw [Buffer.Receive.capacity_compact, capacity]
      received_eq := h.received_eq
      read_eq := ⟨n, hread, by rw [Buffer.Receive.waiting_compact, hwaiting]⟩ }

/-- What fits is taken in behind what waits. -/
theorem takeIn_of_le {ready : Receiver} {data : Bytes}
    (fits : data.length ≤ ready.buffer.freeSize) :
    ∃ filled, ready.takeIn data = .ok filled ∧
      filled.buffer.waiting = ready.buffer.waiting ++ data ∧
      filled.buffer.capacity = ready.buffer.capacity ∧
      filled.bytesReceived = ready.bytesReceived + data.length := by
  obtain ⟨buffer, hcommit, hwaiting, hcapacity⟩ := ready.buffer.commit?_store data fits
  refine ⟨{
    buffer
    bytesReceived := ready.bytesReceived + data.length
    completions := ready.completions + 1 }, ?_, hwaiting, hcapacity, rfl⟩
  rw [takeIn, hcommit]

/-- After a turn the loop has caught up with one read of all bytes so far, or it has ended
as that read was stopped. -/
theorem Caught.turn (h : Caught limits accept got seen r)
    (header : Wire.Frame.headerSize ≤ limits.maxFrameSize) {data : Bytes} {ready : Receiver}
    (prepared : r.prepare = .ok ready) (fits : data.length ≤ ready.buffer.freeSize) :
    ∃ seen', (Wire.Frame.read limits accept (got ++ data)).packets = seen'.reverse ∧
      match (Wire.Frame.read limits accept (got ++ data)).outcome with
      | .error stop => turn (gather limits accept) seen r data = (seen', .error (.ofHalt stop))
      | .ok _ => ∃ r', turn (gather limits accept) seen r data = (seen', .ok r') ∧
          Caught limits accept (got ++ data) seen' r' := by
  obtain ⟨ready', hready, -, caught⟩ := h.prepare header
  obtain rfl : ready' = ready := Except.ok.inj (hready.symm.trans prepared)
  obtain ⟨n, hread, hwaiting⟩ := caught.read_eq
  obtain ⟨filled, hfilled, hmore, hcapacity, hreceived⟩ := takeIn_of_le fits
  have past : n ≤ got.length := by
    have := (Wire.Frame.front_drop_of_readFrom_ok (congrArg Intake.outcome hread)).2.1
    rwa [Nat.zero_add] at this
  have given : filled.buffer.waiting = (got ++ data).drop n := by
    rw [hmore, hwaiting, List.drop_append_of_le_length past]
  have resumed := Wire.Frame.read_append hread data
  rw [← List.drop_append_of_le_length past, ← given] at resumed
  obtain ⟨intake, hintake⟩ : ∃ i, i = Wire.Frame.read limits (fun new => accept (new ++ seen))
      filled.buffer.waiting := ⟨_, rfl⟩
  rw [← hintake] at resumed
  have turned : Receiver.turn (gather limits accept) seen r data =
      (intake.packets.reverse ++ seen, filled.judge (verdictOf intake)) := by
    rw [Receiver.turn, prepared]
    simp only [hfilled, gather, ← hintake]
  refine ⟨intake.packets.reverse ++ seen, ?_, ?_⟩
  · rw [resumed, Intake.after, List.reverse_append, List.reverse_reverse]
  rw [resumed, turned]
  obtain ⟨packets, outcome⟩ := intake
  cases outcome with
  | error stop =>
      rcases stop with f | e | p <;> rfl
  | ok m =>
      have enough := (Wire.Frame.front_drop_of_readFrom_ok
        (congrArg Intake.outcome hintake.symm)).2.1
      rw [Nat.zero_add, Buffer.Receive.length_waiting] at enough
      obtain ⟨buffer, hconsume, hrest, hsize⟩ := filled.buffer.consume?_of_le m enough
      refine ⟨{ filled with buffer }, ?_, ?_⟩
      · simp only [verdictOf, judge, hconsume]
      · exact {
          capacity_eq := by rw [hsize, hcapacity, caught.capacity_eq]
          received_eq := by
            rw [hreceived, caught.received_eq, List.length_append]
          read_eq := by
            refine ⟨n + m, ?_, ?_⟩
            · rw [resumed, Intake.after, List.reverse_append, List.reverse_reverse]
              rfl
            · rw [hrest, given, List.drop_drop] }

/-! ## Whole runs -/

/-- After paced reads the loop has caught up with one read of all their bytes, or it has
ended as that read was stopped. -/
theorem Caught.run (h : Caught limits accept got seen r)
    (header : Wire.Frame.headerSize ≤ limits.maxFrameSize) {reads : List Bytes}
    (paced : Paced (gather limits accept) seen r reads) :
    ∃ seen', (Wire.Frame.read limits accept (got ++ reads.flatten)).packets = seen'.reverse ∧
      match (Wire.Frame.read limits accept (got ++ reads.flatten)).outcome with
      | .error stop => run (gather limits accept) seen r reads = (seen', .error (.ofHalt stop))
      | .ok _ => ∃ r', run (gather limits accept) seen r reads = (seen', .ok r') ∧
          Caught limits accept (got ++ reads.flatten) seen' r' := by
  induction reads generalizing got seen r with
  | nil =>
      rw [List.flatten_nil, List.append_nil]
      obtain ⟨n, hread, -⟩ := h.read_eq
      rw [hread]
      exact ⟨seen, rfl, r, rfl, h⟩
  | cons data later ih =>
      obtain ⟨ready, prepared, -, -⟩ := h.prepare header
      rw [Paced, prepared] at paced
      obtain ⟨-, fits, goesOn⟩ := paced
      obtain ⟨seen', hseen, turned⟩ := h.turn header prepared fits
      rw [List.flatten_cons, ← List.append_assoc]
      cases outcome : (Wire.Frame.read limits accept (got ++ data)).outcome with
      | error stop =>
          -- The read of the bytes so far was stopped, and so is the read of all of them.
          rw [outcome] at turned
          have stopped := Wire.Frame.readFrom_append_of_error outcome later.flatten
          rw [Wire.Frame.read, stopped, ← Wire.Frame.read, outcome]
          refine ⟨seen', hseen, ?_⟩
          simp only [Receiver.run, turned]
      | ok n =>
          rw [outcome] at turned
          obtain ⟨r', turned, caught⟩ := turned
          rw [turned] at goesOn
          have rest := ih caught goesOn
          simp only [Receiver.run, turned]
          exact rest

/-- A buffer that passes the check holds a header. -/
theorem headerSize_le_of_validate {c : Net.Settings} (valid : c.validate = .ok ()) :
    Wire.Frame.headerSize ≤ c.limits.maxFrameSize := by
  have large : ¬ c.recvBufferSize < 64 := by
    intro small
    rw [Net.Settings.validate, if_pos small] at valid
    cases valid
  exact Nat.le_trans (by decide) (Nat.not_lt.1 large)

/-- Packets that keep to the limits and are accepted are read off every stream that starts
with their frames. -/
theorem isPrefix_packets {ps : List Packet} (within : ∀ p ∈ ps, p.Within limits)
    (accepted : ∀ k < ps.length, accept (ps.take (k + 1)).reverse = .ok ()) (rest : Bytes) :
    ps <+: (Wire.Frame.read limits accept (ps.flatMap Wire.Frame.ofPacket ++ rest)).packets := by
  rw [Wire.Frame.read, Wire.Frame.readFrom_flatMap_ofPacket within]
  · rw [Wire.Frame.readFrom_eq_after_read, List.append_nil, List.reverse_reverse]
    exact List.prefix_append ..
  · intro k hk
    rw [List.append_nil]
    exact accepted k hk

/-- What the loop comes to with paced reads, told by one read of all their bytes. -/
theorem run_eq_read (header : Wire.Frame.headerSize ≤ limits.maxFrameSize) {reads : List Bytes}
    (paced : Paced (gather limits accept) [] (new limits.maxFrameSize) reads)
    {seen : List Packet} {result : Except Ending Receiver}
    (ran : run (gather limits accept) [] (new limits.maxFrameSize) reads = (seen, result)) :
    (Wire.Frame.read limits accept reads.flatten).packets = seen.reverse ∧
      ((∃ r, result = .ok r ∧ Caught limits accept reads.flatten seen r) ∨
        ∃ stop, result = .error (.ofHalt stop) ∧
          (Wire.Frame.read limits accept reads.flatten).outcome = .error stop) := by
  have caught : Caught limits accept [] [] (new limits.maxFrameSize) := caught_new
  obtain ⟨seen', hseen, ended⟩ := caught.run header paced
  rw [List.nil_append] at hseen ended
  cases outcome : (Wire.Frame.read limits accept reads.flatten).outcome with
  | error stop =>
      rw [outcome] at ended
      obtain ⟨rfl, rfl⟩ := Prod.mk.inj (ran.symm.trans ended)
      exact ⟨hseen, .inr ⟨stop, rfl, rfl⟩⟩
  | ok n =>
      rw [outcome] at ended
      obtain ⟨r, hrun, later⟩ := ended
      obtain ⟨rfl, rfl⟩ := Prod.mk.inj (ran.symm.trans hrun)
      exact ⟨hseen, .inl ⟨r, rfl, later⟩⟩

end Receiver

end ChatHall.Session
