/-
# The receive loop among the threads

Whatever the threads of a connection do, and in whatever order, the receive loop
makes reads that a socket can deliver, and gets as far as the sequential loop does
with them.
-/

import ChatHall.Proofs.Session.Chunking
import ChatHall.Proofs.Session.Threads

namespace ChatHall.Session

/-- The verdict behind an ending, if there is one. -/
def Ending.stops : Ending → List Verdict
  | failed e => [.failed e]
  | panicked p => [.panicked p]
  | _ => []

namespace Receiver

variable {τ : Type} {hook : τ → Bytes → τ × Verdict} {s t : τ} {r r' ready : Receiver}
variable {reads : List Bytes} {data : Bytes}

theorem run_cons_of_ok (turned : turn hook s r data = (t, .ok r')) (later : List Bytes) :
    run hook s r (data :: later) = run hook t r' later := by
  rw [run, turned]

/-- A loop that has come through some reads came through the first of them. -/
theorem turn_of_run_cons {later : List Bytes} (ran : run hook s r (data :: later) = (t, .ok r')) :
    ∃ u mid, turn hook s r data = (u, .ok mid) ∧ run hook u mid later = (t, .ok r') := by
  cases turned : turn hook s r data with
  | mk u result =>
      rw [run, turned] at ran
      cases result with
      | error e =>
          have same := (Prod.mk.inj ran).2
          contradiction
      | ok mid => exact ⟨u, mid, rfl, ran⟩

theorem run_concat (ran : run hook s r reads = (t, .ok r')) (data : Bytes) :
    run hook s r (reads ++ [data]) = turn hook t r' data := by
  induction reads generalizing s r with
  | nil =>
      obtain ⟨rfl, same⟩ := Prod.mk.inj ran
      obtain rfl := Except.ok.inj same
      cases turned : turn hook s r data with
      | mk u result =>
          cases result with
          | error e => rw [List.nil_append, run, turned]
          | ok mid => exact run_cons_of_ok turned []
  | cons first later ih =>
      obtain ⟨u, mid, turned, rest⟩ := turn_of_run_cons ran
      rw [List.cons_append, run_cons_of_ok turned]
      exact ih rest

theorem paced_cons_iff (prepared : r.prepare = .ok ready) (later : List Bytes) :
    Paced hook s r (data :: later) ↔ data ≠ [] ∧ data.length ≤ ready.buffer.freeSize ∧
      ∀ t r', turn hook s r data = (t, .ok r') → Paced hook t r' later := by
  cases turned : turn hook s r data with
  | mk u result =>
      cases result with
      | error e => simp [Paced, prepared, turned]
      | ok mid => simp [Paced, prepared, turned]

theorem paced_cons_of_error {e : Ending} (choked : r.prepare = .error e) (later : List Bytes) :
    Paced hook s r (data :: later) := by
  rw [Paced, choked]
  exact trivial

/-- A further read can be made if there is room for it. -/
theorem paced_concat (paced : Paced hook s r reads) (ran : run hook s r reads = (t, .ok r'))
    (prepared : r'.prepare = .ok ready) (some_data : data ≠ [])
    (fits : data.length ≤ ready.buffer.freeSize) : Paced hook s r (reads ++ [data]) := by
  induction reads generalizing s r with
  | nil =>
      obtain ⟨rfl, same⟩ := Prod.mk.inj ran
      obtain rfl := Except.ok.inj same
      exact (paced_cons_iff prepared []).2 ⟨some_data, fits, fun _ _ _ => trivial⟩
  | cons first later ih =>
      obtain ⟨u, mid, turned, rest⟩ := turn_of_run_cons ran
      cases hready : r.prepare with
      | error e => exact paced_cons_of_error hready _
      | ok ready' =>
          obtain ⟨some_first, fits_first, goesOn⟩ := (paced_cons_iff hready later).1 paced
          refine (paced_cons_iff hready _).2 ⟨some_first, fits_first, fun v next same => ?_⟩
          obtain ⟨rfl, again⟩ := Prod.mk.inj (turned.symm.trans same)
          obtain rfl := Except.ok.inj again
          exact ih (goesOn u mid turned) rest

theorem paced_of_append {more : List Bytes} (paced : Paced hook s r (reads ++ more)) :
    Paced hook s r reads := by
  induction reads generalizing s r with
  | nil => exact trivial
  | cons first later ih =>
      cases hready : r.prepare with
      | error e => exact paced_cons_of_error hready later
      | ok ready =>
          obtain ⟨some_first, fits, goesOn⟩ := (paced_cons_iff hready _).1 paced
          exact (paced_cons_iff hready later).2
            ⟨some_first, fits, fun u mid turned => ih (goesOn u mid turned)⟩

theorem turn_of_filled {filled : Receiver} (prepared : r.prepare = .ok ready)
    (taken : ready.takeIn data = .ok filled) {verdict : Verdict}
    (given : hook s filled.buffer.waiting = (t, verdict)) :
    turn hook s r data = (t, filled.judge verdict) := by
  rw [turn, prepared]
  dsimp only
  rw [taken]
  dsimp only
  rw [given]

theorem turn_of_refused {e : Ending} (prepared : r.prepare = .ok ready)
    (refused : ready.takeIn data = .error e) : turn hook s r data = (s, .error e) := by
  rw [turn, prepared]
  dsimp only
  rw [refused]

theorem takeIn_error {e : Ending} (refused : r.takeIn data = .error e) : e = .overrun := by
  rw [takeIn] at refused
  split at refused
  · exact (Except.error.inj refused).symm
  · contradiction

theorem stops_of_judge_ok {verdict : Verdict} (judged : r.judge verdict = .ok r') :
    [verdict].filter Verdict.stops = [] := by
  cases verdict with
  | consumed n => rfl
  | failed e => contradiction
  | panicked p => contradiction

theorem stops_of_judge_error {verdict : Verdict} {e : Ending} (judged : r.judge verdict = .error e) :
    [verdict].filter Verdict.stops = e.stops := by
  cases verdict with
  | consumed n =>
      rw [judge] at judged
      split at judged
      · obtain rfl := Except.error.inj judged
        rfl
      · contradiction
  | failed e =>
      obtain rfl := Except.error.inj judged
      rfl
  | panicked p =>
      obtain rfl := Except.error.inj judged
      rfl

end Receiver

namespace Connection

variable {σ τ : Type} {handler : Handler σ} {view : σ → τ} {hook : τ → Bytes → τ × Verdict}
variable {c d : Connection σ} {o : Operation} {choice : Choice} {first : List Operation}
variable {t₀ : τ} {size : Nat} {reads : List Bytes} {sent : Bytes}

/-! ## The loop and its sequential form -/

/-- Where the receive loop is after these reads, told by what the sequential loop comes to with
them: what the handler shows, the receiver, the verdicts that stop the loop, and what the loop has
still to do. -/
inductive Loop (hook : τ → Bytes → τ × Verdict) (t₀ : τ) (size : Nat) :
    List Bytes → τ → Receiver → List Verdict → List Operation → Prop
  | ready {reads : List Bytes} {t : τ} {r : Receiver}
      (ran : Receiver.run hook t₀ (.new size) reads = (t, .ok r)) :
      Loop hook t₀ size reads t r [] [.prepare]
  | waiting {reads : List Bytes} {t : τ} {r ready : Receiver}
      (ran : Receiver.run hook t₀ (.new size) reads = (t, .ok r))
      (prepared : r.prepare = .ok ready) : Loop hook t₀ size reads t ready [] [.await]
  | taken {reads : List Bytes} {t : τ} {r ready filled : Receiver} {data : Bytes}
      (ran : Receiver.run hook t₀ (.new size) reads = (t, .ok r))
      (prepared : r.prepare = .ok ready) (fills : ready.takeIn data = .ok filled) :
      Loop hook t₀ size (reads ++ [data]) t filled [] [.deliver]
  | given {reads : List Bytes} {t : τ} {filled : Receiver} {verdict : Verdict}
      (ran : Receiver.run hook t₀ (.new size) reads = (t, filled.judge verdict)) :
      Loop hook t₀ size reads t filled ([verdict].filter Verdict.stops) [.judge verdict]
  | full {reads : List Bytes} {t : τ} {r : Receiver} {e : Ending}
      (ran : Receiver.run hook t₀ (.new size) reads = (t, .ok r)) (choked : r.prepare = .error e) :
      Loop hook t₀ size reads t r [] []
  /-- The loop was told to stop, or there is nothing more to read. -/
  | left {reads : List Bytes} {t : τ} {r ready : Receiver}
      (ran : Receiver.run hook t₀ (.new size) reads = (t, .ok r))
      (prepared : r.prepare = .ok ready) : Loop hook t₀ size reads t ready [] []
  | ended {reads : List Bytes} {t : τ} {e : Ending} (r : Receiver)
      (ran : Receiver.run hook t₀ (.new size) reads = (t, .error e)) :
      Loop hook t₀ size reads t r e.stops []

theorem stops_deliver (handler : Handler σ) (c : Connection σ) :
    (c.deliver handler).1.stops = c.stops ++
      [(handler.onReceived c.state c.receiver.buffer.waiting).2.2].filter Verdict.stops := by
  rw [stops_eq, stops_eq, handed_deliver, List.flatMap_append, List.flatMap_singleton]

/-- Where the receive loop of a connection is to which the peer has sent these bytes, if it has still
to do `left`. -/
structure Pursued (hook : τ → Bytes → τ × Verdict) (view : σ → τ) (t₀ : τ) (size : Nat)
    (sent : Bytes) (d : Connection σ) (left : List Operation) (reads : List Bytes) : Prop where
  paced : Receiver.Paced hook t₀ (.new size) reads
  sent : reads.flatten ++ d.inbox = sent
  loop : Loop hook t₀ size reads (view d.state) d.receiver d.stops left

/-- An operation of the loop has taken it on, or has ended it and asked for the disconnect. -/
structure Advances (hook : τ → Bytes → τ × Verdict) (view : σ → τ) (t₀ : τ) (size : Nat)
    (sent : Bytes) (result : Connection σ × List Operation) : Prop where
  pursued : ∃ reads,
    Pursued hook view t₀ size sent result.1 (result.2.filter Operation.isLoop) reads
  asks : result.2.filter Operation.isLoop = [] → .act .disconnect ∈ result.2

theorem advances_endLoop (e : Ending) (paced : Receiver.Paced hook t₀ (.new size) reads)
    (total : reads.flatten ++ c.inbox = sent)
    (loop : Loop hook t₀ size reads (view c.state) c.receiver c.stops []) :
    Advances hook view t₀ size sent (c.endLoop e) := by
  obtain ⟨asked, receiver, state, inbox, handed⟩ := endLoop_cases c e
  have stops : (c.endLoop e).1.stops = c.stops := by rw [stops_eq, stops_eq, handed]
  constructor
  · rw [asked]
    refine ⟨reads, paced, ?_, ?_⟩
    · rw [inbox]
      exact total
    · rw [receiver, state, stops]
      exact loop
  · intro _
    rw [asked]
    exact List.mem_cons_self

section Operations

variable (paced : Receiver.Paced hook t₀ (.new size) reads)
variable (total : reads.flatten ++ c.inbox = sent)

include paced total

theorem advances_prepare {r : Receiver} {shown : τ} (hshown : view c.state = shown)
    (hreceiver : c.receiver = r) (hstops : c.stops = [])
    (ran : Receiver.run hook t₀ (.new size) reads = (shown, .ok r))
    (performed : c.perform? handler .prepare choice = some (d, first)) :
    Advances hook view t₀ size sent (d, first) := by
  cases choice with
  | plain =>
      rw [← Option.some.inj performed, hreceiver]
      cases prepared : r.prepare with
      | ok ready =>
          refine ⟨⟨reads, paced, total, ?_⟩, fun none_left => absurd none_left (List.cons_ne_nil _ _)⟩
          rw [← hshown] at ran
          exact hstops ▸ Loop.waiting ran prepared
      | error e =>
          apply advances_endLoop e paced total
          rw [hshown, hreceiver, hstops]
          exact .full ran prepared
  | _ => contradiction

theorem advances_await {r ready : Receiver} {shown : τ} (hshown : view c.state = shown)
    (hreceiver : c.receiver = ready) (hstops : c.stops = [])
    (ran : Receiver.run hook t₀ (.new size) reads = (shown, .ok r))
    (prepared : r.prepare = .ok ready)
    (performed : c.perform? handler .await choice = some (d, first)) :
    Advances hook view t₀ size sent (d, first) := by
  have left : Advances hook view t₀ size sent (c, [.act .disconnect]) := by
    refine ⟨⟨reads, paced, total, ?_⟩, fun _ => List.mem_cons_self⟩
    rw [hshown, hreceiver, hstops]
    exact .left ran prepared
  cases choice with
  | plain => contradiction
  | cancelled =>
      rw [perform?, await?, Option.ite_none_right_eq_some] at performed
      rw [← Option.some.inj performed.2]
      exact left
  | ended =>
      rw [← Option.some.inj performed]
      exact left
  | moved n =>
      rw [perform?, await?, Option.ite_none_right_eq_some] at performed
      obtain ⟨possible, result⟩ := performed
      rw [Bool.and_eq_true, Bool.and_eq_true, decide_eq_true_iff, decide_eq_true_iff,
        decide_eq_true_iff] at possible
      obtain ⟨⟨positive, fits⟩, there⟩ := possible
      have length : (c.inbox.take n).length = n := List.length_take_of_le there
      have some_data : c.inbox.take n ≠ [] := by
        intro nothing
        rw [nothing] at length
        exact absurd length (Nat.ne_of_lt positive)
      have paced' := Receiver.paced_concat paced ran prepared some_data
        (by rwa [length, ← hreceiver])
      have total' : (reads ++ [c.inbox.take n]).flatten ++ c.inbox.drop n = sent := by
        rw [List.flatten_append, List.flatten_singleton, List.append_assoc,
          List.take_append_drop, total]
      rw [← Option.some.inj result, hreceiver]
      cases taken : ready.takeIn (c.inbox.take n) with
      | ok filled =>
          refine ⟨⟨_, paced', total', ?_⟩, fun none_left => absurd none_left (List.cons_ne_nil _ _)⟩
          rw [← hshown] at ran
          exact hstops ▸ Loop.taken ran prepared taken
      | error e =>
          apply advances_endLoop e paced' total'
          have told : c.stops = e.stops := by
            rw [hstops, Receiver.takeIn_error taken]
            rfl
          have turned := Receiver.run_concat ran (c.inbox.take n)
          rw [Receiver.turn_of_refused prepared taken, ← hshown] at turned
          exact told ▸ Loop.ended _ turned

theorem advances_judge {verdict : Verdict} {shown : τ} {filled : Receiver}
    (hshown : view c.state = shown) (hreceiver : c.receiver = filled)
    (hstops : c.stops = [verdict].filter Verdict.stops)
    (ran : Receiver.run hook t₀ (.new size) reads = (shown, filled.judge verdict))
    (performed : c.perform? handler (.judge verdict) choice = some (d, first)) :
    Advances hook view t₀ size sent (d, first) := by
  cases choice with
  | plain =>
      rw [← Option.some.inj performed, hreceiver]
      rw [← hshown] at ran
      cases judged : filled.judge verdict with
      | ok r =>
          rw [judged] at ran
          rw [Receiver.stops_of_judge_ok judged] at hstops
          refine ⟨⟨reads, paced, total, ?_⟩, fun none_left => absurd none_left (List.cons_ne_nil _ _)⟩
          exact hstops ▸ Loop.ready ran
      | error e =>
          rw [judged] at ran
          rw [Receiver.stops_of_judge_error judged] at hstops
          apply advances_endLoop e paced total
          exact hstops ▸ Loop.ended _ ran
  | _ => contradiction

end Operations

theorem advances_deliver {data : Bytes} {r ready filled : Receiver} {shown : τ}
    (shows : handler.Shows view hook)
    (paced : Receiver.Paced hook t₀ (.new size) (reads ++ [data]))
    (total : (reads ++ [data]).flatten ++ c.inbox = sent)
    (hshown : view c.state = shown) (hreceiver : c.receiver = filled) (hstops : c.stops = [])
    (ran : Receiver.run hook t₀ (.new size) reads = (shown, .ok r))
    (prepared : r.prepare = .ok ready) (fills : ready.takeIn data = .ok filled)
    (performed : c.perform? handler .deliver choice = some (d, first)) :
    Advances hook view t₀ size sent (d, first) := by
  cases choice with
  | plain =>
      rw [← Option.some.inj performed]
      have verdict : (c.deliver handler).2.filter Operation.isLoop =
          [.judge (handler.onReceived c.state c.receiver.buffer.waiting).2.2] := by
        rw [deliver, List.filter_append, filter_isLoop_acts]
        rfl
      have given := shows.onReceived c.state c.receiver.buffer.waiting
      have turned := Receiver.run_concat ran data
      rw [hshown] at given
      rw [Receiver.turn_of_filled prepared fills (hreceiver ▸ given)] at turned
      have stops := stops_deliver handler c
      rw [hstops, List.nil_append] at stops
      refine ⟨⟨_, paced, total, ?_⟩, fun none_left => ?_⟩
      · rw [verdict, stops]
        change Loop hook t₀ size _ (view (handler.onReceived c.state _).1) c.receiver _ _
        rw [hreceiver]
        exact .given turned
      · rw [verdict] at none_left
        contradiction
  | _ => contradiction

/-- An operation of the loop takes it on with the sequential one, or ends it. -/
theorem Pursued.perform (h : Pursued hook view t₀ size sent c [o] reads)
    (shows : handler.Shows view hook) (performed : c.perform? handler o choice = some (d, first)) :
    Advances hook view t₀ size sent (d, first) := by
  obtain ⟨paced, total, loop⟩ := h
  generalize hleft : [o] = left at loop
  generalize hstops : c.stops = stops at loop
  generalize hshown : view c.state = shown at loop
  generalize hreceiver : c.receiver = receiver at loop
  cases loop with
  | ready ran =>
      obtain rfl := List.head_eq_of_cons_eq hleft
      exact advances_prepare paced total hshown hreceiver hstops ran performed
  | waiting ran prepared =>
      obtain rfl := List.head_eq_of_cons_eq hleft
      exact advances_await paced total hshown hreceiver hstops ran prepared performed
  | taken ran prepared fills =>
      obtain rfl := List.head_eq_of_cons_eq hleft
      exact advances_deliver shows paced total hshown hreceiver hstops ran prepared fills performed
  | given ran =>
      obtain rfl := List.head_eq_of_cons_eq hleft
      exact advances_judge paced total hshown hreceiver hstops ran performed
  | full ran choked => contradiction
  | left ran prepared => contradiction
  | ended r ran => contradiction

/-! ## Runs -/

theorem Loop.left_cases {t : τ} {r : Receiver} {stops : List Verdict} {left : List Operation}
    (loop : Loop hook t₀ size reads t r stops left) : left = [] ∨ ∃ o, left = [o] := by
  cases loop with
  | ready => exact .inr ⟨_, rfl⟩
  | waiting => exact .inr ⟨_, rfl⟩
  | taken => exact .inr ⟨_, rfl⟩
  | given => exact .inr ⟨_, rfl⟩
  | full => exact .inl rfl
  | left => exact .inl rfl
  | ended => exact .inl rfl

/-- The receive loop keeps up with the sequential one, and does not just stop. -/
structure Abreast (hook : τ → Bytes → τ × Verdict) (view : σ → τ) (t₀ : τ) (size : Nat)
    (sent : Bytes) (c : Connection σ) : Prop where
  pursued : ∃ reads, Pursued hook view t₀ size sent c c.looping reads
  dropped : c.looping = [] → c.IsDropped

theorem abreast_start {s₀ : σ} : Abreast hook view (view s₀) size [] (start s₀ size) where
  pursued := ⟨[], trivial, rfl, .ready rfl⟩
  dropped gone := by contradiction

theorem Abreast.still (h : Abreast hook view t₀ size sent c) (still : Still view c d) :
    Abreast hook view t₀ size sent d where
  pursued := by
    obtain ⟨reads, paced, total, loop⟩ := h.pursued
    refine ⟨reads, paced, ?_, ?_⟩
    · rw [still.inbox]
      exact total
    · rw [still.looping, still.shown, still.receiver, still.stops]
      exact loop
  dropped gone := by
    rw [still.looping] at gone
    exact still.dropped (h.dropped gone)

theorem Abreast.thread (h : Abreast hook view t₀ size sent c) (shows : handler.Shows view hook)
    {i : Nat} (moves : c.step? handler i choice = some d) :
    Abreast hook view t₀ size sent d := by
  obtain ⟨o, rest, -, ⟨-, still⟩ | ⟨e, first, threads, mem, performed, rfl, left, asked⟩⟩ :=
    still_or_loop shows.keeps moves
  · exact h.still still
  · obtain ⟨reads, pursued⟩ := h.pursued
    have alone : c.looping = [o] := by
      rcases pursued.loop.left_cases with gone | ⟨only, hleft⟩
      · rw [gone] at mem
        contradiction
      · rw [hleft] at mem ⊢
        rw [List.mem_singleton.1 mem]
    rw [alone] at pursued
    obtain ⟨⟨more, paced, total, loop⟩, asks⟩ := pursued.perform shows performed
    have now := left alone
    refine ⟨⟨more, paced, total, ?_⟩, fun gone => asked (asks (now.symm.trans gone))⟩
    rw [now]
    exact loop

/-- Every run keeps the receive loop abreast. -/
theorem abreast_of_run (shows : handler.Shows view hook) {s₀ : σ}
    (run : Run handler (start s₀ size) sent d) : Abreast hook view (view s₀) size sent d := by
  induction run with
  | refl => exact abreast_start
  | thread _ i choice moves ih => exact ih.thread shows moves
  | caller _ a ih => exact ih.still (still_spawn _ a)
  | peerSends _ data _ ih =>
      obtain ⟨⟨reads, paced, total, loop⟩, dropped⟩ := ih
      refine ⟨⟨reads, paced, ?_, loop⟩, dropped⟩
      rw [← List.append_assoc, total]
  | peerCloses _ ih =>
      obtain ⟨⟨reads, paced, total, loop⟩, dropped⟩ := ih
      exact ⟨⟨reads, paced, total, loop⟩, dropped⟩

end Connection

end ChatHall.Session
