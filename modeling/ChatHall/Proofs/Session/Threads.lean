/-
# The threads of a connection

What an operation can come to is said once, and all invariants go by that. Only the
four operations of the receive loop touch the receiver, and never more than one of
them is left to do, on whatever thread. What the other threads do goes on beside the
loop: as long as the hooks keep a view of the handler's state, so do all of their
operations. A loop that is over has asked for the disconnect.
-/

import ChatHall.Session.Connection
import Mathlib.Tactic.Common

namespace ChatHall.Session

/-- Whether an operation is one of the receive loop. -/
def Operation.isLoop : Operation → Bool
  | prepare | await | deliver | judge _ => true
  | _ => false

/-- Whether a verdict ends the receive loop by itself. -/
def Verdict.stops : Verdict → Bool
  | consumed _ => false
  | failed _ | panicked _ => true

/-- What was handed over and what the handler said to it, if a notice tells of that. -/
def Notice.handed : Notice → List (Bytes × Verdict)
  | received given verdict => [(given, verdict)]
  | _ => []

/-- The verdict that a notice tells of, if that ends the loop. -/
def Notice.stops : Notice → List Verdict
  | received _ verdict => [verdict].filter Verdict.stops
  | _ => []

/-- A view of the handler's state that only received bytes change, and these as `hook` says. -/
structure Handler.Shows {σ τ : Type} (handler : Handler σ) (view : σ → τ)
    (hook : τ → Bytes → τ × Verdict) : Prop where
  onReceived : ∀ s given,
    hook (view s) given = (view (handler.onReceived s given).1, (handler.onReceived s given).2.2)
  onConnected : ∀ s, view (handler.onConnected s).state = view s
  onSent : ∀ s n, view (handler.onSent s n).state = view s
  onDisconnected : ∀ s, view (handler.onDisconnected s).state = view s

/-- A view of the handler's state that only received bytes change, in whatever way. -/
structure Handler.Keeps {σ τ : Type} (handler : Handler σ) (view : σ → τ) : Prop where
  onConnected : ∀ s, view (handler.onConnected s).state = view s
  onSent : ∀ s n, view (handler.onSent s n).state = view s
  onDisconnected : ∀ s, view (handler.onDisconnected s).state = view s

theorem Handler.Shows.keeps {σ τ : Type} {handler : Handler σ} {view : σ → τ}
    {hook : τ → Bytes → τ × Verdict} (shows : handler.Shows view hook) : handler.Keeps view :=
  ⟨shows.onConnected, shows.onSent, shows.onDisconnected⟩

namespace Connection

variable {σ τ : Type} {handler : Handler σ} {view : σ → τ}
variable {c d e : Connection σ} {o : Operation} {choice : Choice} {first : List Operation}

/-- What the receive loop has still to do, on whatever thread. -/
def looping (c : Connection σ) : List Operation := c.threads.flatten.filter Operation.isLoop

/-- What has been handed over so far, and what the handler said to it. -/
def handed (c : Connection σ) : List (Bytes × Verdict) := c.notices.flatMap Notice.handed

/-- The verdicts so far that end the loop. -/
def stops (c : Connection σ) : List Verdict := c.notices.flatMap Notice.stops

/-- The verdicts that end the loop are among those on what was handed over. -/
theorem stops_eq (c : Connection σ) :
    c.stops = c.handed.flatMap fun call => [call.2].filter Verdict.stops := by
  rw [stops, handed, List.flatMap_assoc]
  congr 1
  funext n
  cases n with
  | received given verdict => exact (List.append_nil _).symm
  | called | accepted | refused => rfl

/-- The connection is done with, or some thread is about to see to that. -/
def IsDropped (c : Connection σ) : Prop :=
  c.isConnected = false ∨ .act .disconnect ∈ c.threads.flatten

/-! ## What operations do -/

/-- What an operation can come to: the connection after it, and what its thread has to do in its
place. -/
inductive Performs (handler : Handler σ) (c : Connection σ) :
    Operation → Connection σ × List Operation → Prop
  | act (a : Action) : Performs handler c (.act a) (c.act a)
  | enqueue (segments : List Bytes) :
      Performs handler c (.enqueue segments) (c.enqueue segments, [])
  | call (h : Hook) : Performs handler c (.call h) (c.call handler h)
  | complain (h : Hook) (p : Panic) :
      Performs handler c (.complain h p) (c.logEntry (panicEntry h.name p), [])
  | cancel : Performs handler c .cancel ({ c with isCancelled := true }, [])
  | startClosing : Performs handler c .startClosing
      (c.spawn [.lock, .takeWriter, .unlock, .clearQueue], [])
  | takeWriter : Performs handler c .takeWriter ({ c with hasWriter := false }, [])
  | clearQueue : Performs handler c .clearQueue ({ c with sendQueue := [] }, [])
  | prepare (receiver : Receiver) (prepared : c.receiver.prepare = .ok receiver) :
      Performs handler c .prepare ({ c with receiver }, [.await])
  | choke (e : Ending) (full : c.receiver.prepare = .error e) :
      Performs handler c .prepare (c.endLoop e)
  /-- The loop is told to stop, or the socket has come to its end. -/
  | quit : Performs handler c .await (c, [.act .disconnect])
  | read (n : Nat) (receiver : Receiver)
      (possible : 0 < n ∧ n ≤ c.receiver.buffer.freeSize ∧ n ≤ c.inbox.length)
      (taken : c.receiver.takeIn (c.inbox.take n) = .ok receiver) :
      Performs handler c .await ({ c with inbox := c.inbox.drop n, receiver }, [.deliver])
  | refuse (n : Nat) (e : Ending)
      (possible : 0 < n ∧ n ≤ c.receiver.buffer.freeSize ∧ n ≤ c.inbox.length)
      (refused : c.receiver.takeIn (c.inbox.take n) = .error e) :
      Performs handler c .await ({ c with inbox := c.inbox.drop n }.endLoop e)
  | deliver : Performs handler c .deliver (c.deliver handler)
  | judge (verdict : Verdict) (receiver : Receiver)
      (judged : c.receiver.judge verdict = .ok receiver) :
      Performs handler c (.judge verdict) ({ c with receiver }, [.prepare])
  | condemn (verdict : Verdict) (e : Ending) (judged : c.receiver.judge verdict = .error e) :
      Performs handler c (.judge verdict) (c.endLoop e)
  | lock (free : c.isLocked = false) : Performs handler c .lock ({ c with isLocked := true }, [])
  | unlock : Performs handler c .unlock ({ c with isLocked := false }, [])
  | collect (busy : c.sendQueue ≠ []) (connected : c.isConnected = true) :
      Performs handler c .collect ({ c with sendQueue := [] }, [.begin c.sendQueue])
  | retire (idle : c.sendQueue = [] ∨ c.isConnected = false) :
      Performs handler c .collect ({ c with pending := false, sendQueue := [] }, [.unlock])
  | begin (batch : List Bytes) (writer : c.hasWriter = true) :
      Performs handler c (.begin batch) (c, [.write batch 0])
  | miss (batch : List Bytes) (gone : c.hasWriter = false) :
      Performs handler c (.begin batch) (c, [.clearPending, .unlock])
  | write (segments : List Bytes) (done n : Nat)
      (possible : 0 < n ∧ n ≤ segments.flatten.length) (whole : c.isBroken = false)
      (unfinished : Buffer.Scatter.advance segments n ≠ []) :
      Performs handler c (.write segments done)
        ({ c with outbox := c.outbox ++ segments.flatten.take n },
          [.write (Buffer.Scatter.advance segments n) (done + n)])
  | written (segments : List Bytes) (done n : Nat)
      (possible : 0 < n ∧ n ≤ segments.flatten.length) (whole : c.isBroken = false)
      (finished : Buffer.Scatter.advance segments n = []) :
      Performs handler c (.write segments done)
        ({ c with outbox := c.outbox ++ segments.flatten.take n }, [.complete (done + n)])
  | interrupted (segments : List Bytes) (done : Nat) (cancelled : c.isCancelled = true) :
      Performs handler c (.write segments done) (c, [.clearPending, .unlock])
  | failed (segments : List Bytes) (done : Nat) :
      Performs handler c (.write segments done)
        ({ c with isBroken := true }, [.unlock, .clearPending, .act .disconnect])
  | complete (n : Nat) : Performs handler c (.complete n)
      ({ c with bytesSent := c.bytesSent + n }, [.call (.sent n), .collect])
  | clearPending :
      Performs handler c .clearPending ({ c with pending := false, sendQueue := [] }, [])

theorem performs_of_await? {result : Connection σ × List Operation}
    (awaited : c.await? choice = some result) : Performs handler c .await result := by
  cases choice with
  | plain => contradiction
  | cancelled =>
      rw [await?, Option.ite_none_right_eq_some] at awaited
      obtain rfl := Option.some.inj awaited.2
      exact .quit
  | ended =>
      obtain rfl := Option.some.inj awaited
      exact .quit
  | moved n =>
      rw [await?, Option.ite_none_right_eq_some] at awaited
      obtain ⟨possible, same⟩ := awaited
      obtain rfl := Option.some.inj same
      rw [Bool.and_eq_true, Bool.and_eq_true, decide_eq_true_iff, decide_eq_true_iff,
        decide_eq_true_iff, and_assoc] at possible
      cases taken : c.receiver.takeIn (c.inbox.take n) with
      | ok receiver => exact .read n receiver possible taken
      | error e => exact .refuse n e possible taken

theorem performs_of_write? {result : Connection σ × List Operation} {segments : List Bytes}
    {done : Nat} (offered : c.write? segments done choice = some result) :
    Performs handler c (.write segments done) result := by
  cases choice with
  | plain => contradiction
  | cancelled =>
      rw [write?, Option.ite_none_right_eq_some] at offered
      obtain rfl := Option.some.inj offered.2
      exact .interrupted segments done offered.1
  | ended =>
      obtain rfl := Option.some.inj offered
      exact .failed segments done
  | moved n =>
      rw [write?, Option.ite_none_right_eq_some] at offered
      obtain ⟨possible, same⟩ := offered
      obtain rfl := Option.some.inj same
      rw [Bool.and_eq_true, Bool.and_eq_true, decide_eq_true_iff, decide_eq_true_iff,
        Bool.not_eq_true'] at possible
      split
      · next finished => exact .written segments done n possible.1 possible.2 finished
      · next unfinished => exact .write segments done n possible.1 possible.2 unfinished

/-- Whatever an operation does is one of these. -/
theorem performs_of_perform? {result : Connection σ × List Operation}
    (performed : c.perform? handler o choice = some result) : Performs handler c o result := by
  have awaited (taken : c.perform? handler .await choice = some result) :
      Performs handler c .await result := performs_of_await? taken
  have offered {segments : List Bytes} {done : Nat}
      (taken : c.perform? handler (.write segments done) choice = some result) :
      Performs handler c (.write segments done) result := performs_of_write? taken
  cases choice with
  | plain =>
      cases o with
      | await => exact awaited performed
      | write segments done => exact offered performed
      | lock =>
          rw [perform?, Option.ite_none_left_eq_some] at performed
          obtain ⟨free, same⟩ := performed
          obtain rfl := Option.some.inj same
          exact .lock (eq_false_of_ne_true free)
      | prepare =>
          obtain rfl := Option.some.inj performed
          cases prepared : c.receiver.prepare with
          | ok receiver => exact .prepare receiver prepared
          | error e => exact .choke e prepared
      | judge verdict =>
          obtain rfl := Option.some.inj performed
          cases judged : c.receiver.judge verdict with
          | ok receiver => exact .judge verdict receiver judged
          | error e => exact .condemn verdict e judged
      | collect =>
          obtain rfl := Option.some.inj performed
          rw [collect]
          split
          · next idle =>
              rw [Bool.or_eq_true, List.isEmpty_iff, Bool.not_eq_true'] at idle
              exact .retire idle
          · next busy =>
              rw [Bool.or_eq_true, not_or, List.isEmpty_iff, Bool.not_eq_true',
                Bool.not_eq_false] at busy
              exact .collect busy.1 busy.2
      | begin batch =>
          obtain rfl := Option.some.inj performed
          split
          · next writer => exact .begin batch writer
          · next gone => exact .miss batch (eq_false_of_ne_true gone)
      | act | enqueue | call | complain | cancel | startClosing | deliver | unlock | complete
      | clearPending | takeWriter | clearQueue =>
          obtain rfl := Option.some.inj performed
          constructor
  | _ =>
      -- The socket decides about reads and writes alone.
      cases o with
      | await => exact awaited performed
      | write segments done => exact offered performed
      | _ => contradiction

/-! ## Operations beside the loop -/

/-- Nothing happens to what the receive loop works on. -/
structure Beside (view : σ → τ) (c d : Connection σ) : Prop where
  receiver : d.receiver = c.receiver
  inbox : d.inbox = c.inbox
  shown : view d.state = view c.state
  handed : d.handed = c.handed
  connected : c.isConnected = false → d.isConnected = false
  threads : ∃ more, d.threads = c.threads ++ more ∧ more.flatten.filter Operation.isLoop = []

theorem beside_of_eq (receiver : d.receiver = c.receiver) (inbox : d.inbox = c.inbox)
    (state : d.state = c.state) (notices : d.notices = c.notices)
    (isConnected : d.isConnected = c.isConnected) (threads : d.threads = c.threads) :
    Beside view c d where
  receiver := receiver
  inbox := inbox
  shown := congrArg view state
  handed := congrArg (List.flatMap Notice.handed) notices
  connected := isConnected.trans
  threads := ⟨[], threads.trans (List.append_nil _).symm, rfl⟩

theorem Beside.refl (c : Connection σ) : Beside view c c := beside_of_eq rfl rfl rfl rfl rfl rfl

theorem handed_note (c : Connection σ) {n : Notice} (other : n.handed = []) :
    (c.note n).handed = c.handed := by
  rw [handed, note, List.flatMap_append, List.flatMap_singleton, other]
  exact List.append_nil _

theorem beside_note (c : Connection σ) {n : Notice} (other : n.handed = []) :
    Beside view c (c.note n) :=
  ⟨rfl, rfl, rfl, handed_note c other, id, [], (List.append_nil _).symm, rfl⟩

theorem beside_spawn (c : Connection σ) {thread : List Operation}
    (other : thread.filter Operation.isLoop = []) : Beside view c (c.spawn thread) := by
  refine ⟨rfl, rfl, rfl, rfl, id, [thread], rfl, ?_⟩
  rw [List.flatten_singleton]
  exact other

theorem Beside.trans (first : Beside view c d) (second : Beside view d e) : Beside view c e where
  receiver := second.receiver.trans first.receiver
  inbox := second.inbox.trans first.inbox
  shown := second.shown.trans first.shown
  handed := second.handed.trans first.handed
  connected gone := second.connected (first.connected gone)
  threads := by
    obtain ⟨more, hmore, none_more⟩ := first.threads
    obtain ⟨again, hagain, none_again⟩ := second.threads
    refine ⟨more ++ again, ?_, ?_⟩
    · rw [hagain, hmore, List.append_assoc]
    · rw [List.flatten_append, List.filter_append, none_more, none_again]
      rfl

theorem filter_isLoop_acts (actions : List Action) :
    (actions.map Operation.act).filter Operation.isLoop = [] := by
  apply List.filter_eq_nil_iff.2
  intro o mem
  obtain ⟨a, -, rfl⟩ := List.mem_map.1 mem
  exact Bool.false_ne_true

theorem beside_act (c : Connection σ) (a : Action) :
    Beside view c (c.act a).1 ∧ (c.act a).2.filter Operation.isLoop = [] := by
  cases a with
  | send segment =>
      rw [act]
      split
      · exact ⟨beside_note c rfl, rfl⟩
      · split
        · exact ⟨beside_note c rfl, rfl⟩
        · exact ⟨.refl c, rfl⟩
  | sendMany segments =>
      rw [act]
      split
      · exact ⟨beside_note c rfl, rfl⟩
      · exact ⟨.refl c, rfl⟩
  | disconnect =>
      rw [act]
      split
      · exact ⟨⟨rfl, rfl, rfl, rfl, fun _ => rfl, [], (List.append_nil _).symm, rfl⟩, rfl⟩
      · exact ⟨.refl c, rfl⟩

theorem beside_enqueue (c : Connection σ) (segments : List Bytes) :
    Beside view c (c.enqueue segments) := by
  have queued : Beside view c { c with sendQueue := c.sendQueue ++ segments } :=
    beside_of_eq rfl rfl rfl rfl rfl rfl
  have accepted := queued.trans (beside_note _ (n := .accepted segments) rfl)
  rw [enqueue]
  generalize { c with sendQueue := c.sendQueue ++ segments }.note (.accepted segments) = noted
    at accepted
  split
  · have raised : Beside view noted { noted with pending := true } :=
      beside_of_eq rfl rfl rfl rfl rfl rfl
    exact (accepted.trans raised).trans (beside_spawn _ rfl)
  · exact accepted

theorem beside_call (keeps : handler.Keeps view) (c : Connection σ) (h : Hook) :
    Beside view c (c.call handler h).1 ∧
      (c.call handler h).2.filter Operation.isLoop = [] := by
  constructor
  · have shown : view (c.call handler h).1.state = view c.state := by
      cases h with
      | connected => exact keeps.onConnected c.state
      | sent n => exact keeps.onSent c.state n
      | disconnected => exact keeps.onDisconnected c.state
    exact ⟨rfl, rfl, shown, handed_note c rfl, id, [], (List.append_nil _).symm, rfl⟩
  · rw [call.eq_def, List.filter_append, filter_isLoop_acts]
    split
    · rfl
    · rfl

/-- The other operations go on beside the loop. -/
theorem Performs.beside {result : Connection σ × List Operation}
    (performs : Performs handler c o result) (keeps : handler.Keeps view)
    (other : o.isLoop = false) :
    Beside view c result.1 ∧ result.2.filter Operation.isLoop = [] := by
  cases performs with
  | prepare | choke | quit | read | refuse | deliver | judge | condemn => contradiction
  | act a => exact beside_act c a
  | enqueue segments => exact ⟨beside_enqueue c segments, rfl⟩
  | call h => exact beside_call keeps c h
  | startClosing => exact ⟨beside_spawn c rfl, rfl⟩
  | _ => exact ⟨beside_of_eq rfl rfl rfl rfl rfl rfl, rfl⟩

/-! ## Steps -/

/-- A step of a thread performs its first operation. -/
theorem step?_at {i : Nat} (moves : c.step? handler i choice = some d) :
    ∃ before o rest after e first, before.length = i ∧
      c.threads = before ++ (o :: rest) :: after ∧
      c.perform? handler o choice = some (e, first) ∧
      d = { e with threads := e.threads.set before.length (first ++ rest) } := by
  rw [step?] at moves
  split at moves
  · next o rest found =>
      obtain ⟨⟨e, first⟩, performed, rfl⟩ := Option.map_eq_some_iff.1 moves
      obtain ⟨inside, thread⟩ := List.getElem?_eq_some_iff.1 found
      have place := List.length_take_of_le (Nat.le_of_lt inside)
      refine ⟨c.threads.take i, o, rest, c.threads.drop (i + 1), e, first, place, ?_, performed, ?_⟩
      · rw [← thread, ← List.drop_eq_getElem_cons inside, List.take_append_drop]
      · rw [place]
  · contradiction

/-- A step performs the first operation of a thread. -/
theorem step?_cases {i : Nat} (moves : c.step? handler i choice = some d) :
    ∃ before o rest after e first, c.threads = before ++ (o :: rest) :: after ∧
      c.perform? handler o choice = some (e, first) ∧
      d = { e with threads := e.threads.set before.length (first ++ rest) } := by
  obtain ⟨before, o, rest, after, e, first, -, found⟩ := step?_at moves
  exact ⟨before, o, rest, after, e, first, found⟩

section Thread

variable {before after more : List (List Operation)} {rest : List Operation}

theorem set_threads (was : c.threads = before ++ (o :: rest) :: after)
    (spawned : d.threads = c.threads ++ more) :
    d.threads.set before.length (first ++ rest) =
      before ++ (first ++ rest) :: (after ++ more) := by
  rw [spawned, was, List.append_assoc, List.set_append_right _ _ (Nat.le_refl _), Nat.sub_self]
  rfl

/-- What all threads have to do before a thread goes on, and then. -/
theorem flatten_threads (was : c.threads = before ++ (o :: rest) :: after)
    (now : d.threads = before ++ (first ++ rest) :: (after ++ more)) :
    c.threads.flatten = before.flatten ++ o :: (rest ++ after.flatten) ∧
      d.threads.flatten = before.flatten ++ first ++ (rest ++ after.flatten) ++ more.flatten := by
  constructor
  · rw [was, List.flatten_append, List.flatten_cons, List.cons_append]
  · rw [now, List.flatten_append, List.flatten_cons, List.flatten_append]
    simp only [List.append_assoc]

/-- What is left of the loop once a thread has gone on. -/
theorem looping_of_threads (was : c.threads = before ++ (o :: rest) :: after)
    (now : d.threads = before ++ (first ++ rest) :: (after ++ more))
    (none_more : more.flatten.filter Operation.isLoop = []) :
    ∃ earlier later, c.looping = earlier ++ [o].filter Operation.isLoop ++ later ∧
      d.looping = earlier ++ first.filter Operation.isLoop ++ later := by
  refine ⟨before.flatten.filter Operation.isLoop,
    rest.filter Operation.isLoop ++ after.flatten.filter Operation.isLoop, ?_, ?_⟩
  · rw [looping, was, List.flatten_append, List.flatten_cons, ← List.singleton_append]
    simp only [List.filter_append, List.append_assoc]
  · rw [looping, now, List.flatten_append, List.flatten_cons, List.flatten_append]
    simp only [List.filter_append, List.append_assoc, none_more, List.append_nil]

/-- What the threads have still to do, but for the operation that is performed, stays. -/
theorem mem_threads (was : c.threads = before ++ (o :: rest) :: after)
    (now : d.threads = before ++ (first ++ rest) :: (after ++ more)) {other : Operation}
    (mem : other ∈ c.threads.flatten) : other = o ∨ other ∈ d.threads.flatten := by
  rw [was, List.flatten_append, List.flatten_cons] at mem
  rw [now, List.flatten_append, List.flatten_cons, List.flatten_append]
  simp only [List.mem_append, List.mem_cons] at mem ⊢
  tauto

end Thread

theorem isConnected_act_disconnect (c : Connection σ) :
    (c.act .disconnect).1.isConnected = false := by
  rw [act]
  split
  · rfl
  · next gone => exact eq_false_of_ne_true gone

/-- A connection that is dropped stays so. -/
theorem Beside.isDropped {before after more : List (List Operation)} {rest : List Operation}
    (beside : Beside view c e) (was : c.threads = before ++ (o :: rest) :: after)
    (now : d.threads = before ++ (first ++ rest) :: (after ++ more))
    (same : d.isConnected = e.isConnected)
    (performed : c.perform? handler o choice = some (e, first)) (dropped : c.IsDropped) :
    d.IsDropped := by
  rcases dropped with gone | asked
  · left
    exact same.trans (beside.connected gone)
  · rcases mem_threads was now asked with rfl | stays
    · cases choice with
      | plain =>
          left
          rw [same, ← (Prod.mk.inj (Option.some.inj performed)).1]
          exact isConnected_act_disconnect c
      | _ => contradiction
    · exact .inr stays

/-- A step beside the receive loop. -/
structure Still (view : σ → τ) (c d : Connection σ) : Prop where
  receiver : d.receiver = c.receiver
  inbox : d.inbox = c.inbox
  shown : view d.state = view c.state
  handed : d.handed = c.handed
  looping : d.looping = c.looping
  dropped : c.IsDropped → d.IsDropped

theorem Still.stops (still : Still view c d) : d.stops = c.stops := by
  rw [stops_eq, stops_eq, still.handed]

theorem threads_endLoop (c : Connection σ) (e : Ending) : (c.endLoop e).1.threads = c.threads := by
  rw [endLoop]
  split <;> rfl

/-- The end of the loop is noted in the log alone. -/
theorem endLoop_cases (c : Connection σ) (e : Ending) :
    (c.endLoop e).2 = [.act .disconnect] ∧ (c.endLoop e).1.receiver = c.receiver ∧
      (c.endLoop e).1.state = c.state ∧ (c.endLoop e).1.inbox = c.inbox ∧
      (c.endLoop e).1.handed = c.handed := by
  rw [endLoop]
  split
  · exact ⟨rfl, rfl, rfl, rfl, rfl⟩
  · exact ⟨rfl, rfl, rfl, rfl, rfl⟩

theorem handed_deliver (handler : Handler σ) (c : Connection σ) :
    (c.deliver handler).1.handed = c.handed ++ [(c.receiver.buffer.waiting,
      (handler.onReceived c.state c.receiver.buffer.waiting).2.2)] := by
  have noted : (c.deliver handler).1.notices = c.notices ++ [.received c.receiver.buffer.waiting
      (handler.onReceived c.state c.receiver.buffer.waiting).2.2] := rfl
  rw [handed, handed, noted, List.flatMap_append, List.flatMap_singleton]
  rfl

/-- The receive loop starts no threads. -/
theorem Performs.threads_of_isLoop {result : Connection σ × List Operation}
    (performs : Performs handler c o result) (isLoop : o.isLoop = true) :
    result.1.threads = c.threads := by
  cases performs with
  | prepare | quit | read | deliver | judge => rfl
  | choke e | condemn verdict e => exact threads_endLoop c e
  | refuse n e => exact threads_endLoop _ e
  | _ => contradiction

/-- A step goes on beside the receive loop, or is the next one of it. -/
theorem still_or_loop (keeps : handler.Keeps view) {i : Nat}
    (moves : c.step? handler i choice = some d) :
    ∃ o rest, c.threads[i]? = some (o :: rest) ∧
      (o.isLoop = false ∧ Still view c d ∨
        ∃ e first threads, o ∈ c.looping ∧
          c.perform? handler o choice = some (e, first) ∧ d = { e with threads } ∧
          (c.looping = [o] → d.looping = first.filter Operation.isLoop) ∧
          (.act .disconnect ∈ first → d.IsDropped)) := by
  obtain ⟨before, o, rest, after, e, first, rfl, was, performed, result⟩ := step?_at moves
  refine ⟨o, rest, by rw [was, List.getElem?_append_right (Nat.le_refl _), Nat.sub_self]; rfl, ?_⟩
  cases kind : o.isLoop with
  | false =>
      left
      obtain ⟨beside, none_first⟩ := (performs_of_perform? performed).beside keeps kind
      obtain ⟨more, spawned, none_more⟩ := beside.threads
      have now : d.threads = before ++ (first ++ rest) :: (after ++ more) := by
        rw [result]
        exact set_threads was spawned
      obtain ⟨earlier, later, hc, hd⟩ := looping_of_threads was now none_more
      have none_performed : [o].filter Operation.isLoop = [] :=
        List.filter_cons_of_neg (ne_true_of_eq_false kind)
      subst result
      refine ⟨rfl, beside.receiver, beside.inbox, beside.shown, beside.handed, ?_,
        beside.isDropped was now rfl performed⟩
      rw [hc, hd, none_first, none_performed]
  | true =>
      right
      have spawned : e.threads = c.threads ++ [] :=
        ((performs_of_perform? performed).threads_of_isLoop kind).trans (List.append_nil _).symm
      have now : d.threads = before ++ (first ++ rest) :: (after ++ []) := by
        rw [result]
        exact set_threads was spawned
      obtain ⟨earlier, later, hc, hd⟩ := looping_of_threads was now rfl
      have performing : [o].filter Operation.isLoop = [o] := List.filter_cons_of_pos kind
      rw [performing] at hc
      refine ⟨e, first, _, ?_, performed, result, fun alone => ?_, fun asked => .inr ?_⟩
      · rw [hc]
        exact List.mem_append_left _ (List.mem_append_right _ List.mem_cons_self)
      · rw [hc] at alone
        have none_left := congrArg List.length alone
        simp only [List.length_append, List.length_singleton] at none_left
        have none_earlier : earlier = [] := List.eq_nil_of_length_eq_zero (by omega)
        have none_later : later = [] := List.eq_nil_of_length_eq_zero (by omega)
        rw [hd, none_earlier, none_later, List.nil_append, List.append_nil]
      · rw [now, List.flatten_append, List.flatten_cons]
        exact List.mem_append_right _ (List.mem_append_left _ (List.mem_append_left _ asked))

/-! ## Runs -/

/-- Any number of steps, in which the peer sends these bytes. -/
inductive Run (handler : Handler σ) (c : Connection σ) : Bytes → Connection σ → Prop
  | refl : Run handler c [] c
  | thread {sent : Bytes} {d e : Connection σ} (run : Run handler c sent d) (i : Nat)
      (choice : Choice) (moves : d.step? handler i choice = some e) : Run handler c sent e
  | caller {sent : Bytes} {d : Connection σ} (run : Run handler c sent d) (a : Action) :
      Run handler c sent (d.spawn [.act a])
  | peerSends {sent : Bytes} {d : Connection σ} (run : Run handler c sent d) (data : Bytes)
      (open_ : d.peerClosed = false) :
      Run handler c (sent ++ data) { d with inbox := d.inbox ++ data }
  | peerCloses {sent : Bytes} {d : Connection σ} (run : Run handler c sent d) :
      Run handler c sent { d with peerClosed := true }

/-- The connection after some steps of threads, with what decides them, if all can be done. -/
def steps? (handler : Handler σ) (c : Connection σ) (moves : List (Nat × Choice)) :
    Option (Connection σ) :=
  moves.foldlM (fun c move => c.step? handler move.1 move.2) c

theorem Run.steps {sent : Bytes} {moves : List (Nat × Choice)} (run : Run handler c sent d)
    (moved : d.steps? handler moves = some e) : Run handler c sent e := by
  induction moves generalizing d with
  | nil =>
      obtain rfl := Option.some.inj moved
      exact run
  | cons move later ih =>
      rw [steps?, List.foldlM_cons] at moved
      obtain ⟨mid, first, rest⟩ := Option.bind_eq_some_iff.1 moved
      exact ih (run.thread move.1 move.2 first) rest

/-- Runs take all steps. -/
theorem Run.step {sent : Bytes} (run : Run handler c sent d) (last : Step handler d e) :
    ∃ data, Run handler c (sent ++ data) e := by
  cases last with
  | thread _ i choice moves => exact ⟨[], (List.append_nil sent).symm ▸ run.thread i choice moves⟩
  | caller a => exact ⟨[], (List.append_nil sent).symm ▸ run.caller a⟩
  | peerSends data h => exact ⟨data, run.peerSends data h⟩
  | peerCloses => exact ⟨[], (List.append_nil sent).symm ▸ run.peerCloses⟩

theorem still_spawn (c : Connection σ) (a : Action) : Still view c (c.spawn [.act a]) where
  receiver := rfl
  inbox := rfl
  shown := rfl
  handed := rfl
  looping := by
    rw [looping, spawn, List.flatten_append, List.filter_append]
    exact List.append_nil _
  dropped := by
    rintro (gone | asked)
    · exact .inl gone
    · right
      rw [spawn, List.flatten_append]
      exact List.mem_append_left _ asked

end Connection

end ChatHall.Session
