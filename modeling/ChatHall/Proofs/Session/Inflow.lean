/-
# What a handler is given

The receive buffer is a queue of bytes without a bound as far as a handler can tell.
Whatever the handler does, and whatever the other threads do meanwhile, each call gives
it the bytes of all reads so far from the first one that it is not done with. Only an
end of the loop shows that there is a bound: when the handler is done with nothing of a
full buffer.

Nothing is asked of the handler here. The invariant follows the loop through its four
operations; the other threads reach neither the buffer nor the calls made so far.
-/

import ChatHall.Proofs.Session.Chunking
import ChatHall.Proofs.Session.Threads

namespace ChatHall.Session

/-! ## The operations on the buffer -/

namespace Receiver

/-- A buffer full of waiting bytes ends the loop. -/
theorem prepare_of_full {r : Receiver} (full : r.buffer.waiting.length = r.buffer.capacity) :
    r.prepare = .error (.full r.buffer.capacity) := by
  have total := r.buffer.dataSize_add_freeSize_compact
  rw [Buffer.Receive.length_waiting] at full
  have none_free : r.buffer.compact.freeSize = 0 := by omega
  rw [prepare, if_pos none_free, Buffer.Receive.capacity_compact]

/-- In any other buffer there is room for the next read. -/
theorem prepare_of_not_full {r : Receiver}
    (room : r.buffer.waiting.length ≠ r.buffer.capacity) :
    r.prepare = .ok { r with buffer := r.buffer.compact } := by
  have total := r.buffer.dataSize_add_freeSize_compact
  rw [Buffer.Receive.length_waiting] at room
  have some_free : r.buffer.compact.freeSize ≠ 0 := by omega
  rw [prepare, if_neg some_free]

theorem completions_of_takeIn {r filled : Receiver} {data : Bytes}
    (taken : r.takeIn data = .ok filled) : filled.completions = r.completions + 1 := by
  rw [takeIn] at taken
  split at taken
  · contradiction
  · obtain rfl := Except.ok.inj taken
    rfl

theorem judge_consumed_of_le {r : Receiver} {n : Nat} (enough : n ≤ r.buffer.waiting.length) :
    ∃ buffer, r.judge (.consumed n) = .ok { r with buffer } ∧
      buffer.waiting = r.buffer.waiting.drop n ∧ buffer.capacity = r.buffer.capacity := by
  rw [Buffer.Receive.length_waiting] at enough
  obtain ⟨buffer, consumes, waiting, capacity⟩ := r.buffer.consume?_of_le n enough
  refine ⟨buffer, ?_, waiting, capacity⟩
  simp only [judge, consumes]

theorem judge_consumed_of_lt {r : Receiver} {n : Nat} (short : r.buffer.waiting.length < n) :
    r.judge (.consumed n) = .error (.overclaimed n r.buffer.dataSize) := by
  rw [Buffer.Receive.length_waiting] at short
  have refused : r.buffer.consume? n = none := dif_neg (Nat.not_le.2 short)
  simp only [judge, refused]

end Receiver

/-! ## The calls -/

/-- How many bytes a verdict says are done with. -/
def Verdict.claim : Verdict → Nat
  | consumed n => n
  | failed _ | panicked _ => 0

/-- Whether a call lets the loop go on: the handler is done with no more than it was given. -/
def Accepted (call : Bytes × Verdict) : Prop := ∃ n ≤ call.1.length, call.2 = .consumed n

namespace Connection

/-- How many bytes the handler is done with after these calls. -/
def consumed : List (Bytes × Verdict) → Nat
  | [] => 0
  | call :: calls => call.2.claim + consumed calls

theorem consumed_concat (calls : List (Bytes × Verdict)) (call : Bytes × Verdict) :
    consumed (calls ++ [call]) = consumed calls + call.2.claim := by
  induction calls with
  | nil => exact Nat.add_comm _ _
  | cons earlier calls ih => rw [List.cons_append, consumed, ih, consumed, Nat.add_assoc]

/-- Each call is given what the reads up to it have brought, but for the bytes done with before. -/
def Slices (reads : List Bytes) (calls : List (Bytes × Verdict)) : Prop :=
  ∀ k, (inside : k < calls.length) →
    consumed (calls.take k) ≤ (reads.take (k + 1)).flatten.length ∧
      calls[k].1 = (reads.take (k + 1)).flatten.drop (consumed (calls.take k))

variable {reads : List Bytes} {calls : List (Bytes × Verdict)} {last : Bytes × Verdict}

theorem Slices.read (slices : Slices reads calls) (even : calls.length = reads.length)
    (data : Bytes) : Slices (reads ++ [data]) calls := by
  intro k inside
  rw [List.take_append_of_le_length (by omega)]
  exact slices k inside

theorem Slices.call (slices : Slices reads calls) (odd : calls.length + 1 = reads.length)
    (past : consumed calls ≤ reads.flatten.length)
    (given : last.1 = reads.flatten.drop (consumed calls)) : Slices reads (calls ++ [last]) := by
  intro k inside
  rw [List.length_append, List.length_singleton] at inside
  rcases Nat.lt_succ_iff_lt_or_eq.1 inside with earlier | rfl
  · rw [List.take_append_of_le_length (Nat.le_of_lt earlier), List.getElem_append_left earlier]
    exact slices k earlier
  · rw [List.take_left, odd, List.take_length, List.getElem_concat_length rfl]
    exact ⟨past, given⟩

/-! ## The invariant -/

/-- What waits is what the reads have brought, but for the bytes that the calls are done with. -/
structure Unread (reads : List Bytes) (calls : List (Bytes × Verdict))
    (buffer : Buffer.Receive) : Prop where
  accepted : ∀ call ∈ calls, Accepted call
  past : consumed calls ≤ reads.flatten.length
  waiting : buffer.waiting = reads.flatten.drop (consumed calls)

/-- An accepted call uses up what it claims. -/
theorem Unread.call {buffer after : Buffer.Receive} (unread : Unread reads calls buffer) {n : Nat}
    (enough : n ≤ buffer.waiting.length) (rest : after.waiting = buffer.waiting.drop n) :
    Unread reads (calls ++ [(buffer.waiting, .consumed n)]) after := by
  have past := unread.past
  have claimed : consumed (calls ++ [(buffer.waiting, .consumed n)]) = consumed calls + n :=
    consumed_concat calls _
  refine ⟨fun call mem => ?_, ?_, ?_⟩
  · rcases List.mem_append.1 mem with earlier | last
    · exact unread.accepted call earlier
    · rw [List.mem_singleton.1 last]
      exact ⟨n, enough, rfl⟩
  · rw [unread.waiting, List.length_drop] at enough
    omega
  · rw [claimed, rest, unread.waiting, List.drop_drop]

/-- Where the loop is between its reads and its calls, if it has still to do `left`. -/
def Stage (reads : List Bytes) (calls : List (Bytes × Verdict)) (buffer : Buffer.Receive) :
    List Operation → Prop
  | [.prepare] | [.await] => calls.length = reads.length ∧ Unread reads calls buffer
  | [.deliver] => calls.length + 1 = reads.length ∧ Unread reads calls buffer
  | [.judge verdict] => ∃ before, calls = before ++ [(buffer.waiting, verdict)] ∧
      before.length + 1 = reads.length ∧ Unread reads before buffer
  | [] => calls.length = reads.length ∧ ∀ call ∈ calls.dropLast, Accepted call
  | _ => False

/-- What has come of the stream `sent` after some reads, if the loop has still to do `left`. -/
structure Drawn {σ : Type} (capacity : Nat) (sent : Bytes) (c : Connection σ)
    (left : List Operation) (reads : List Bytes) : Prop where
  nonempty : ∀ data ∈ reads, data ≠ []
  total : reads.flatten ++ c.inbox = sent
  capacity_eq : c.receiver.buffer.capacity = capacity
  received_eq : c.receiver.bytesReceived = reads.flatten.length
  completions_eq : c.receiver.completions = reads.length
  slices : Slices reads c.handed
  stage : Stage reads c.handed c.receiver.buffer left

variable {σ : Type} {handler : Handler σ} {c d : Connection σ} {o : Operation} {choice : Choice}
variable {capacity : Nat} {sent : Bytes} {left first : List Operation}

/-- The loop has at most one operation left. -/
theorem Stage.left_cases {buffer : Buffer.Receive} (stage : Stage reads calls buffer left) :
    left = [] ∨ ∃ o, left = [o] := by
  rw [Stage.eq_def] at stage
  split at stage
  · exact .inr ⟨_, rfl⟩
  · exact .inr ⟨_, rfl⟩
  · exact .inr ⟨_, rfl⟩
  · exact .inr ⟨_, rfl⟩
  · exact .inl rfl
  · contradiction

/-- A loop that ends before a call has made all its calls. -/
theorem Drawn.idle (h : Drawn capacity sent c left reads)
    (even : c.handed.length = reads.length) (unread : Unread reads c.handed c.receiver.buffer) :
    Drawn capacity sent c [] reads :=
  { h with stage := ⟨even, fun call mem => unread.accepted call (List.dropLast_subset _ mem)⟩ }

/-- The end of the loop is noted in the log alone. -/
theorem Drawn.endLoop (h : Drawn capacity sent c [] reads) (e : Ending) :
    Drawn capacity sent (c.endLoop e).1 ((c.endLoop e).2.filter Operation.isLoop) reads := by
  obtain ⟨asked, receiver, -, inbox, handed⟩ := endLoop_cases c e
  rw [asked]
  exact {
    nonempty := h.nonempty
    total := inbox ▸ h.total
    capacity_eq := receiver ▸ h.capacity_eq
    received_eq := receiver ▸ h.received_eq
    completions_eq := receiver ▸ h.completions_eq
    slices := handed ▸ h.slices
    stage := handed ▸ h.stage }

/-! ## The operations of the loop -/

theorem Drawn.prepare {receiver : Receiver} (h : Drawn capacity sent c [.prepare] reads)
    (prepared : c.receiver.prepare = .ok receiver) :
    Drawn capacity sent { c with receiver } [.await] reads := by
  obtain ⟨even, unread⟩ := h.stage
  by_cases full : c.receiver.buffer.waiting.length = c.receiver.buffer.capacity
  · rw [Receiver.prepare_of_full full] at prepared
    contradiction
  · rw [Receiver.prepare_of_not_full full] at prepared
    obtain rfl := Except.ok.inj prepared
    exact {
      nonempty := h.nonempty
      total := h.total
      capacity_eq := (Buffer.Receive.capacity_compact _).trans h.capacity_eq
      received_eq := h.received_eq
      completions_eq := h.completions_eq
      slices := h.slices
      stage := ⟨even, unread.accepted, unread.past,
        (Buffer.Receive.waiting_compact _).trans unread.waiting⟩ }

/-- A read brings the next bytes of the stream, and there is room for them. -/
theorem Drawn.read (h : Drawn capacity sent c [.await] reads) {n : Nat}
    (possible : 0 < n ∧ n ≤ c.receiver.buffer.freeSize ∧ n ≤ c.inbox.length) :
    ∃ receiver, c.receiver.takeIn (c.inbox.take n) = .ok receiver ∧
      Drawn capacity sent { c with inbox := c.inbox.drop n, receiver } [.deliver]
        (reads ++ [c.inbox.take n]) := by
  obtain ⟨positive, fits, there⟩ := possible
  obtain ⟨even, accepted, past, waiting⟩ := h.stage
  have length : (c.inbox.take n).length = n := List.length_take_of_le there
  have room : (c.inbox.take n).length ≤ c.receiver.buffer.freeSize := by rwa [length]
  obtain ⟨receiver, taken, more, capacity, received⟩ := Receiver.takeIn_of_le room
  have flat : (reads ++ [c.inbox.take n]).flatten = reads.flatten ++ c.inbox.take n := by
    rw [List.flatten_append, List.flatten_singleton]
  have unread : Unread (reads ++ [c.inbox.take n]) c.handed receiver.buffer := by
    refine ⟨accepted, ?_, ?_⟩
    · rw [flat, List.length_append]
      omega
    · rw [more, waiting, flat, List.drop_append_of_le_length past]
  have odd : c.handed.length + 1 = (reads ++ [c.inbox.take n]).length := by
    rw [List.length_append, even]
    rfl
  refine ⟨receiver, taken, ?_⟩
  exact {
    nonempty := by
      intro data mem
      rcases List.mem_append.1 mem with earlier | last
      · exact h.nonempty data earlier
      · rw [List.mem_singleton.1 last]
        exact List.ne_nil_of_length_pos (by rwa [length])
    total := by
      rw [flat, List.append_assoc, List.take_append_drop]
      exact h.total
    capacity_eq := capacity.trans h.capacity_eq
    received_eq := by
      rw [received, h.received_eq, flat, List.length_append]
    completions_eq := by
      rw [Receiver.completions_of_takeIn taken, h.completions_eq, List.length_append]
      rfl
    slices := h.slices.read even _
    stage := ⟨odd, unread⟩ }

theorem Drawn.deliver (h : Drawn capacity sent c [.deliver] reads) :
    Drawn capacity sent (c.deliver handler).1
      ((c.deliver handler).2.filter Operation.isLoop) reads := by
  obtain ⟨odd, unread⟩ := h.stage
  have verdict : (c.deliver handler).2.filter Operation.isLoop =
      [.judge (handler.onReceived c.state c.receiver.buffer.waiting).2.2] := by
    rw [Connection.deliver, List.filter_append, filter_isLoop_acts]
    rfl
  have calls := handed_deliver handler c
  rw [verdict]
  exact {
    nonempty := h.nonempty
    total := h.total
    capacity_eq := h.capacity_eq
    received_eq := h.received_eq
    completions_eq := h.completions_eq
    slices := by
      rw [calls]
      exact h.slices.call odd unread.past unread.waiting
    stage := ⟨c.handed, calls, odd, unread⟩ }

/-- A verdict that claims no more than was given takes the loop to the next read. -/
theorem Drawn.judge {verdict : Verdict} {receiver : Receiver}
    (h : Drawn capacity sent c [.judge verdict] reads)
    (judged : c.receiver.judge verdict = .ok receiver) :
    Drawn capacity sent { c with receiver } [.prepare] reads := by
  obtain ⟨before, calls, odd, unread⟩ := h.stage
  cases verdict with
  | failed e => contradiction
  | panicked p => contradiction
  | consumed n =>
      rcases Nat.lt_or_ge c.receiver.buffer.waiting.length n with short | enough
      · rw [Receiver.judge_consumed_of_lt short] at judged
        contradiction
      · obtain ⟨buffer, consumes, rest, capacity⟩ := Receiver.judge_consumed_of_le enough
        obtain rfl := Except.ok.inj (consumes.symm.trans judged)
        have even : c.handed.length = reads.length := by
          rw [calls, List.length_append]
          exact odd
        have used : Unread reads c.handed buffer := calls ▸ unread.call enough rest
        exact {
          nonempty := h.nonempty
          total := h.total
          capacity_eq := capacity.trans h.capacity_eq
          received_eq := h.received_eq
          completions_eq := h.completions_eq
          slices := h.slices
          stage := ⟨even, used⟩ }

/-- An operation of the loop takes it to its next stage. -/
theorem Drawn.performs {result : Connection σ × List Operation}
    (h : Drawn capacity sent c [o] reads) (performs : Performs handler c o result)
    (isLoop : o.isLoop = true) :
    ∃ more, Drawn capacity sent result.1 (result.2.filter Operation.isLoop) more := by
  cases performs with
  | prepare receiver prepared => exact ⟨reads, h.prepare prepared⟩
  | choke e full => exact ⟨reads, (h.idle h.stage.1 h.stage.2).endLoop e⟩
  | quit => exact ⟨reads, h.idle h.stage.1 h.stage.2⟩
  | read n receiver possible taken =>
      obtain ⟨filled, fills, drawn⟩ := h.read possible
      obtain rfl := Except.ok.inj (fills.symm.trans taken)
      exact ⟨_, drawn⟩
  | refuse n e possible refused =>
      obtain ⟨filled, fills, -⟩ := h.read possible
      rw [refused] at fills
      contradiction
  | deliver => exact ⟨reads, h.deliver⟩
  | judge verdict receiver judged => exact ⟨reads, h.judge judged⟩
  | condemn verdict e judged =>
      obtain ⟨before, calls, odd, unread⟩ := h.stage
      have ended : Drawn capacity sent c [] reads := by
        refine { h with stage := ⟨?_, ?_⟩ }
        · rw [calls, List.length_append]
          exact odd
        · rw [calls, List.dropLast_concat]
          exact unread.accepted
      exact ⟨reads, ended.endLoop e⟩
  | _ => contradiction

/-! ## The end of the loop -/

/-- Whether an operation of the loop is its last one, with this choice. -/
inductive Ends (c : Connection σ) : Operation → Choice → Prop
  /-- Nothing of a full buffer is done with. -/
  | full (unread : c.receiver.buffer.waiting.length = c.receiver.buffer.capacity) :
      Ends c .prepare .plain
  | cancelled (told : c.isCancelled = true) : Ends c .await .cancelled
  /-- The peer has closed, or the socket has failed. -/
  | closed : Ends c .await .ended
  | failed (e : Net.Error) : Ends c (.judge (.failed e)) .plain
  | panicked (p : Panic) : Ends c (.judge (.panicked p)) .plain
  | overclaimed (n : Nat) (short : c.receiver.buffer.waiting.length < n) :
      Ends c (.judge (.consumed n)) .plain

theorem Ends.isLoop (ends : Ends c o choice) : o.isLoop = true := by
  cases ends <;> rfl

theorem filter_isLoop_endLoop (c : Connection σ) (e : Ending) :
    (c.endLoop e).2.filter Operation.isLoop = [] := by
  rw [(endLoop_cases c e).1]
  rfl

theorem ends_iff_of_prepare (performed : c.perform? handler .prepare choice = some (d, first)) :
    first.filter Operation.isLoop = [] ↔ Ends c .prepare choice := by
  cases choice with
  | plain =>
      by_cases full : c.receiver.buffer.waiting.length = c.receiver.buffer.capacity
      · simp only [perform?, Receiver.prepare_of_full full, Option.some.injEq] at performed
        have left := filter_isLoop_endLoop c (.full c.receiver.buffer.capacity)
        rw [performed] at left
        exact iff_of_true left (.full full)
      · simp only [perform?, Receiver.prepare_of_not_full full, Option.some.injEq] at performed
        obtain ⟨-, rfl⟩ := Prod.mk.inj performed
        refine iff_of_false (List.cons_ne_nil _ _) fun ends => ?_
        cases ends with
        | full unread => exact full unread
  | _ => contradiction

/-- A read never ends the loop: what is read has fitted. -/
theorem ends_iff_of_await (performed : c.perform? handler .await choice = some (d, first)) :
    first.filter Operation.isLoop = [] ↔ Ends c .await choice := by
  cases choice with
  | plain => contradiction
  | cancelled =>
      rw [perform?, await?, Option.ite_none_right_eq_some] at performed
      obtain ⟨told, same⟩ := performed
      obtain ⟨-, rfl⟩ := Prod.mk.inj (Option.some.inj same)
      exact iff_of_true rfl (.cancelled told)
  | ended =>
      obtain ⟨-, rfl⟩ := Prod.mk.inj (Option.some.inj performed)
      exact iff_of_true rfl .closed
  | moved n =>
      rw [perform?, await?, Option.ite_none_right_eq_some] at performed
      obtain ⟨possible, same⟩ := performed
      rw [Bool.and_eq_true, Bool.and_eq_true, decide_eq_true_iff, decide_eq_true_iff,
        decide_eq_true_iff] at possible
      have room : (c.inbox.take n).length ≤ c.receiver.buffer.freeSize := by
        rw [List.length_take_of_le possible.2]
        exact possible.1.2
      obtain ⟨receiver, taken, -⟩ := Receiver.takeIn_of_le room
      simp only [taken, Option.some.injEq] at same
      obtain ⟨-, rfl⟩ := Prod.mk.inj same
      refine iff_of_false (List.cons_ne_nil _ _) fun ends => ?_
      cases ends

theorem ends_iff_of_judge {verdict : Verdict}
    (performed : c.perform? handler (.judge verdict) choice = some (d, first)) :
    first.filter Operation.isLoop = [] ↔ Ends c (.judge verdict) choice := by
  cases choice with
  | plain =>
      have ended {e : Ending} (judged : c.receiver.judge verdict = .error e) :
          first.filter Operation.isLoop = [] := by
        simp only [perform?, judged, Option.some.injEq] at performed
        have left := filter_isLoop_endLoop c e
        rwa [performed] at left
      cases verdict with
      | failed e => exact iff_of_true (ended rfl) (.failed e)
      | panicked p => exact iff_of_true (ended rfl) (.panicked p)
      | consumed n =>
          rcases Nat.lt_or_ge c.receiver.buffer.waiting.length n with short | enough
          · exact iff_of_true (ended (Receiver.judge_consumed_of_lt short)) (.overclaimed n short)
          · obtain ⟨buffer, judged, -⟩ := Receiver.judge_consumed_of_le enough
            simp only [perform?, judged, Option.some.injEq] at performed
            obtain ⟨-, rfl⟩ := Prod.mk.inj performed
            refine iff_of_false (List.cons_ne_nil _ _) fun ends => ?_
            cases ends with
            | overclaimed _ short => exact absurd enough (Nat.not_le.2 short)
  | _ => contradiction

/-- The loop has nothing left to do just after the operations that end it. -/
theorem ends_iff (isLoop : o.isLoop = true)
    (performed : c.perform? handler o choice = some (d, first)) :
    first.filter Operation.isLoop = [] ↔ Ends c o choice := by
  cases o with
  | prepare => exact ends_iff_of_prepare performed
  | await => exact ends_iff_of_await performed
  | judge verdict => exact ends_iff_of_judge performed
  | deliver =>
      cases choice with
      | plain =>
          obtain ⟨-, rfl⟩ := Prod.mk.inj (Option.some.inj performed)
          refine iff_of_false ?_ fun ends => ?_
          · rw [List.filter_append, filter_isLoop_acts]
            exact List.cons_ne_nil _ _
          · cases ends
      | _ => contradiction
  | _ => contradiction

/-! ## Runs -/

/-- A view that shows nothing is kept by all hooks. -/
theorem keeps_nothing (handler : Handler σ) : handler.Keeps fun _ => () :=
  ⟨fun _ => rfl, fun _ _ => rfl, fun _ => rfl⟩

theorem drawn_start (s₀ : σ) : Drawn capacity [] (start s₀ capacity) [.prepare] [] where
  nonempty := fun _ mem => absurd mem List.not_mem_nil
  total := rfl
  capacity_eq := Buffer.Receive.capacity_new capacity
  received_eq := rfl
  completions_eq := rfl
  slices := fun _ inside => absurd inside (Nat.not_lt_zero _)
  stage := ⟨rfl, fun _ mem => absurd mem List.not_mem_nil, Nat.le_refl _,
    Buffer.Receive.waiting_new capacity⟩

theorem Drawn.still (h : Drawn capacity sent c c.looping reads)
    (still : Still (fun _ => ()) c d) : Drawn capacity sent d d.looping reads where
  nonempty := h.nonempty
  total := still.inbox ▸ h.total
  capacity_eq := still.receiver ▸ h.capacity_eq
  received_eq := still.receiver ▸ h.received_eq
  completions_eq := still.receiver ▸ h.completions_eq
  slices := still.handed ▸ h.slices
  stage := by
    rw [still.looping, still.handed, still.receiver]
    exact h.stage

/-- A step keeps what has been drawn, and ends the loop by the operations that end it alone. -/
theorem Drawn.step? (h : Drawn capacity sent c c.looping reads) {i : Nat}
    (moves : c.step? handler i choice = some d) :
    (∃ more, Drawn capacity sent d d.looping more) ∧
      (d.looping = [] ↔ c.looping = [] ∨
        ∃ o rest, c.threads[i]? = some (o :: rest) ∧ Ends c o choice) := by
  obtain ⟨o, rest, head, ⟨other, still⟩ | ⟨e, first, threads, mem, performed, rfl, left, -⟩⟩ :=
    still_or_loop (keeps_nothing handler) moves
  · refine ⟨⟨reads, h.still still⟩, ?_⟩
    rw [still.looping]
    refine ⟨.inl, ?_⟩
    rintro (ended | ⟨o', rest', head', ends⟩)
    · exact ended
    · -- The thread would have gone on with an operation of the loop.
      obtain rfl := (List.cons.inj (Option.some.inj (head'.symm.trans head))).1
      rw [ends.isLoop] at other
      contradiction
  · have alone : c.looping = [o] := by
      rcases h.stage.left_cases with gone | ⟨only, hleft⟩
      · rw [gone] at mem
        contradiction
      · rw [hleft] at mem ⊢
        rw [List.mem_singleton.1 mem]
    have isLoop : o.isLoop = true := (List.mem_filter.1 mem).2
    have now := left alone
    rw [alone] at h
    obtain ⟨more, drawn⟩ := h.performs (performs_of_perform? performed) isLoop
    constructor
    · refine ⟨more, { drawn with stage := ?_ }⟩
      rw [now]
      exact drawn.stage
    · rw [now, ends_iff isLoop performed]
      refine ⟨fun ends => .inr ⟨o, rest, head, ends⟩, ?_⟩
      rintro (ended | ⟨o', rest', head', ends⟩)
      · rw [alone] at ended
        contradiction
      · obtain rfl := (List.cons.inj (Option.some.inj (head'.symm.trans head))).1
        exact ends

theorem drawn_of_run {s₀ : σ} (run : Run handler (start s₀ capacity) sent d) :
    ∃ reads, Drawn capacity sent d d.looping reads := by
  induction run with
  | refl => exact ⟨[], drawn_start s₀⟩
  | thread _ i choice moves ih =>
      obtain ⟨reads, drawn⟩ := ih
      exact (drawn.step? moves).1
  | caller _ a ih =>
      obtain ⟨reads, drawn⟩ := ih
      exact ⟨reads, drawn.still (still_spawn _ a)⟩
  | peerSends _ data _ ih =>
      obtain ⟨reads, drawn⟩ := ih
      refine ⟨reads, { drawn with total := ?_ }⟩
      rw [← List.append_assoc, drawn.total]
  | peerCloses _ ih =>
      obtain ⟨reads, drawn⟩ := ih
      exact ⟨reads, { drawn with }⟩

/-- What the handler of a connection has been given, if the peer has sent the bytes `sent` and
they have been taken in by these reads. -/
structure Inflow (capacity : Nat) (sent : Bytes) (d : Connection σ) (reads : List Bytes) :
    Prop where
  /-- Each read has brought the next bytes of the stream, at least one. -/
  nonempty : ∀ data ∈ reads, data ≠ []
  total : reads.flatten ++ d.inbox = sent
  capacity_eq : d.receiver.buffer.capacity = capacity
  received_eq : d.receiver.bytesReceived = reads.flatten.length
  completions_eq : d.receiver.completions = reads.length
  /-- There is one call for each read, but between the last read and its call. -/
  calls : d.handed.length + (if d.looping = [.deliver] then 1 else 0) = reads.length
  /-- The call with number `k` was given the stream from the first byte that the earlier calls
  were not done with to the last one that had been read. -/
  slices : Slices reads d.handed
  /-- The next call is going to be given that as well. -/
  next : d.looping = [.deliver] →
    d.receiver.buffer.waiting = reads.flatten.drop (consumed d.handed)
  /-- Only the last call can have ended the loop. -/
  accepted : ∀ call ∈ d.handed.dropLast, Accepted call

theorem Drawn.inflow (h : Drawn capacity sent d d.looping reads) : Inflow capacity sent d reads := by
  have stage := h.stage
  have calls : d.handed.length + (if d.looping = [.deliver] then 1 else 0) = reads.length ∧
      ∀ call ∈ d.handed.dropLast, Accepted call := by
    rw [Stage.eq_def] at stage
    split at stage
    · next left => exact ⟨by rw [left]; exact stage.1, fun _ mem =>
        stage.2.accepted _ (List.dropLast_subset _ mem)⟩
    · next left => exact ⟨by rw [left]; exact stage.1, fun _ mem =>
        stage.2.accepted _ (List.dropLast_subset _ mem)⟩
    · next left => exact ⟨by rw [left]; exact stage.1, fun _ mem =>
        stage.2.accepted _ (List.dropLast_subset _ mem)⟩
    · next verdict left =>
        obtain ⟨before, same, odd, unread⟩ := stage
        rw [left, same, List.dropLast_concat, List.length_append]
        exact ⟨odd, unread.accepted⟩
    · next left => exact ⟨by rw [left]; exact stage.1, stage.2⟩
    · contradiction
  exact {
    nonempty := h.nonempty
    total := h.total
    capacity_eq := h.capacity_eq
    received_eq := h.received_eq
    completions_eq := h.completions_eq
    calls := calls.1
    slices := h.slices
    next := by
      intro left
      rw [left] at stage
      exact stage.2.waiting
    accepted := calls.2 }

/-- A receive buffer of this capacity is a queue of bytes without a bound, to its handler and to
everybody else. -/
structure RefinesQueue (capacity : Nat) : Prop where
  /-- Whatever has been done with a buffer, the next call on it does as it should. -/
  serves (made : List Buffer.Receive.Call) :
    ((Buffer.Receive.new capacity).calls made).Serves capacity
  /-- Whatever a handler does, it is given the stream. -/
  inflow {σ : Type} {handler : Handler σ} {s₀ : σ} {sent : Bytes} {d : Connection σ} :
    Run handler (start s₀ capacity) sent d → ∃ reads, Inflow capacity sent d reads
  /-- A step ends the loop exactly if it is one of those in `Ends`. -/
  ends {σ : Type} {handler : Handler σ} {s₀ : σ} {sent : Bytes} {d e : Connection σ} {i : Nat}
    {choice : Choice} :
    Run handler (start s₀ capacity) sent d → d.step? handler i choice = some e →
      (e.looping = [] ↔ d.looping = [] ∨
        ∃ o rest, d.threads[i]? = some (o :: rest) ∧ Ends d o choice)

/-- Receive buffers of all capacities are queues without a bound. -/
theorem refines_queue (capacity : Nat) : RefinesQueue capacity where
  serves made := Buffer.Receive.serves_calls_new capacity made
  inflow run := by
    obtain ⟨reads, drawn⟩ := drawn_of_run run
    exact ⟨reads, drawn.inflow⟩
  ends run moves := by
    obtain ⟨reads, drawn⟩ := drawn_of_run run
    exact (drawn.step? moves).2

end Connection

end ChatHall.Session
