/-
# Batches

A drain hands its batch to the socket as the writing of segments says: each answer of
the socket is one step of the thread, other threads may do anything in between, and
what the thread has to do next tells how far the writing has come. So what is known
about writing in parts holds of what a connection sends.
-/

import ChatHall.Proofs.Buffer.Scatter
import ChatHall.Session.Connection

namespace ChatHall.Session

open Buffer.Scatter

/-- What decides the step of a drain if its socket answers so. -/
def Choice.ofAnswer : Answer → Choice
  | .took 0 | .failed => .ended
  | .took (n + 1) => .moved (n + 1)

/-- What a drain has to do when the writing of its batch has come so far. -/
def Operation.ofOutcome : Outcome → List Operation
  | .written total => [.complete total]
  | .stalled | .failed => [.unlock, .clearPending, .act .disconnect]
  | .waiting left done => [.write left done]

namespace Connection

variable {σ : Type} {handler : Handler σ} {c d : Connection σ} {answer : Answer}
variable {left : List Bytes} {done : Nat}

/-! ## One offer -/

/-- An answer leads a drain as far as it leads the writing. -/
theorem write?_ofAnswer {result : Connection σ × List Operation} (some_left : left ≠ [])
    (offered : c.write? left done (.ofAnswer answer) = some result) :
    result.1.threads = c.threads ∧ result.1.outbox = c.outbox ++ (writeFrom done [answer] left).2 ∧
      result.2 = Operation.ofOutcome (writeFrom done [answer] left).1 := by
  cases left with
  | nil => contradiction
  | cons s rest =>
      cases answer with
      | failed =>
          obtain rfl := Option.some.inj offered
          exact ⟨rfl, (List.append_nil c.outbox).symm, rfl⟩
      | took n =>
          cases n with
          | zero =>
              obtain rfl := Option.some.inj offered
              exact ⟨rfl, (List.append_nil c.outbox).symm, rfl⟩
          | succ n =>
              rw [Choice.ofAnswer, write?, Option.ite_none_right_eq_some] at offered
              obtain rfl := Option.some.inj offered.2
              rw [writeFrom_took some_left n.succ_pos]
              cases advance (s :: rest) (n + 1) with
              | nil => exact ⟨rfl, congrArg _ (List.append_nil _).symm, rfl⟩
              | cons s' rest' => exact ⟨rfl, congrArg _ (List.append_nil _).symm, rfl⟩

/-! ## A batch -/

section Writes

variable (handler) (i : Nat) (later : List Operation) (batch : List Bytes)

/-- Thread `i` writes a batch: so far the socket has answered so, and taken these bytes. In between
everything but this thread may change. -/
inductive Writes : Connection σ → List Answer → Bytes → Prop
  | begin (c : Connection σ) (ready : c.threads[i]? = some (.write batch 0 :: later)) :
      Writes c [] []
  | meanwhile (c d : Connection σ) (answers : List Answer) (taken : Bytes)
      (before : Writes c answers taken) (same : d.threads[i]? = c.threads[i]?) :
      Writes d answers taken
  | offer (c d : Connection σ) (answers : List Answer) (answer : Answer) (taken : Bytes)
      (before : Writes c answers taken) (moved : c.step? handler i (.ofAnswer answer) = some d) :
      Writes d (answers ++ [answer]) (taken ++ d.outbox.drop c.outbox.length)

end Writes

/-- A thread that an answer moves is waiting with an offer, and the answer is one to that. -/
theorem step?_ofOutcome {i : Nat} {later : List Operation} {o : Outcome}
    (ready : c.threads[i]? = some (Operation.ofOutcome o ++ later))
    (moved : c.step? handler i (.ofAnswer answer) = some d) :
    ∃ left done result, o = .waiting left done ∧
      c.write? left done (.ofAnswer answer) = some result ∧
      d = { result.1 with threads := result.1.threads.set i (result.2 ++ later) } := by
  rw [step?, ready] at moved
  cases o with
  | waiting left done =>
      obtain ⟨result, offered, rfl⟩ := Option.map_eq_some_iff.1 moved
      exact ⟨left, done, result, rfl, offered, rfl⟩
  | written total | stalled | failed =>
      -- What is done next then takes no answer of a socket.
      rcases answer with (_ | n) | _ <;> contradiction

/-- Whatever others do in between, a batch is written as the writing of segments says. -/
theorem Writes.follows {i : Nat} {later : List Operation} {batch : List Bytes}
    {answers : List Answer} {taken : Bytes} (some_batch : batch ≠ [])
    (writes : Writes handler i later batch c answers taken) :
    (writeAll answers batch).2 = taken ∧
      c.threads[i]? = some (Operation.ofOutcome (writeAll answers batch).1 ++ later) := by
  induction writes with
  | begin c ready =>
      cases batch with
      | nil => contradiction
      | cons s rest => exact ⟨rfl, ready⟩
  | meanwhile c d answers taken before same ih => exact ⟨ih.1, same.trans ih.2⟩
  | offer c d answers answer taken before moved ih =>
      obtain ⟨rfl, ready⟩ := ih
      obtain ⟨left, done, result, waits, offered, rfl⟩ := step?_ofOutcome ready moved
      obtain ⟨some_left, resumed⟩ := writeFrom_append waits [answer]
      obtain ⟨threads, outbox, next⟩ := write?_ofAnswer some_left offered
      have alive : i < result.1.threads.length := by
        rw [threads]
        exact (List.getElem?_eq_some_iff.1 ready).1
      rw [writeAll, resumed]
      refine ⟨?_, ?_⟩
      · show _ = _ ++ result.1.outbox.drop c.outbox.length
        rw [outbox, List.drop_left]
        rfl
      · show (result.1.threads.set i (result.2 ++ later))[i]? = _
        rw [List.getElem?_set_self alive, next]

/-- While its socket is whole, a thread that waits with an offer can be told that any part of it was
taken. -/
theorem exists_step?_of_waiting {i n : Nat} {later : List Operation} (whole : c.isBroken = false)
    (ready : c.threads[i]? = some (Operation.ofOutcome (.waiting left done) ++ later))
    (some_byte : 0 < n) (within : n ≤ left.flatten.length) :
    ∃ d, c.step? handler i (.ofAnswer (.took n)) = some d := by
  obtain ⟨m, rfl⟩ := Nat.exists_eq_succ_of_ne_zero (Nat.ne_of_gt some_byte)
  have possible : (0 < m + 1 && m + 1 ≤ left.flatten.length && !c.isBroken) = true := by
    rw [whole, decide_eq_true some_byte, decide_eq_true within]
    rfl
  rw [step?, ready]
  show ∃ d, (c.write? left done (.moved (m + 1))).map _ = some d
  rw [write?, if_pos possible]
  exact ⟨_, rfl⟩

end Connection

/-! ## What becomes of a batch -/

/-- Nothing of a batch is lost, sent twice or out of order, however little the socket takes at a
time. -/
structure Lossless (batch : List Bytes) : Prop where
  /-- Advancing drops so many bytes from the front of the whole, or all of it. -/
  advances (n : Nat) :
    (advance batch n).flatten = batch.flatten.drop (min n batch.flatten.length)
  /-- A socket that takes a part of each offer has been handed the whole, each byte once and in
  order, or else a front of it with at least a byte for each answer, and can take any part of what
  is behind that. -/
  hands (answers : List Answer) :
    [] ∉ batch → Accepts batch answers →
      writeAll answers batch = (.written batch.flatten.length, batch.flatten) ∨
        ∃ rest taken, writeAll answers batch = (.waiting rest taken.length, taken) ∧
          taken ++ rest.flatten = batch.flatten ∧ answers.length ≤ taken.length ∧
          0 < rest.flatten.length ∧
          ∀ n, 0 < n → n ≤ rest.flatten.length → Accepts batch (answers ++ [.took n])
  /-- Such a socket gives at most one answer for each byte, and after so many it has the whole. -/
  ends (answers : List Answer) :
    [] ∉ batch → Accepts batch answers →
      answers.length ≤ batch.flatten.length ∧
        (answers.length = batch.flatten.length →
          writeAll answers batch = (.written batch.flatten.length, batch.flatten))
  /-- Whatever the answers are, the writing stalls at an offer of which the socket says that it took
  nothing, and nowhere else. -/
  stalls (answers : List Answer) :
    (writeAll answers batch).1 = .stalled ↔
      ∃ before after rest count, answers = before ++ .took 0 :: after ∧
        (writeAll before batch).1 = .waiting rest count
  /-- The drain of a connection does the same, whatever other threads do meanwhile. -/
  drains {σ : Type} (handler : Handler σ) (i : Nat) (later : List Operation) (c : Connection σ)
      (answers : List Answer) (taken : Bytes) :
    batch ≠ [] → Connection.Writes handler i later batch c answers taken →
      (writeAll answers batch).2 = taken ∧
        c.threads[i]? = some (Operation.ofOutcome (writeAll answers batch).1 ++ later)
  /-- While its socket is whole, it can be given any answer of a socket that takes a part. -/
  serves {σ : Type} (handler : Handler σ) (i : Nat) (later : List Operation) (c : Connection σ)
      (n done : Nat) :
    c.isBroken = false → 0 < n → n ≤ batch.flatten.length →
      c.threads[i]? = some (.write batch done :: later) →
        ∃ d, c.step? handler i (.ofAnswer (.took n)) = some d

theorem lossless (batch : List Bytes) : Lossless batch where
  advances n := by
    rw [flatten_advance]
    rcases Nat.le_total n batch.flatten.length with inside | beyond
    · rw [Nat.min_eq_left inside]
    · rw [Nat.min_eq_right beyond, List.drop_length, List.drop_eq_nil_of_le beyond]
  hands answers filled accepts := accepts.writeAll filled
  ends answers filled accepts := by
    refine ⟨accepts.length_le, fun all => ?_⟩
    rcases accepts.writeAll filled with whole | ⟨rest, taken, -, whole, steady, some_rest, -⟩
    · exact whole
    · -- Then the answers alone would be as many as the whole has bytes, and some are left.
      have length := congrArg List.length whole
      rw [List.length_append] at length
      omega
  stalls answers := stalled_iff
  drains handler i later c answers taken some_batch writes := writes.follows some_batch
  serves handler i later c n done whole some_byte within ready :=
    Connection.exists_step?_of_waiting whole ready some_byte within

/-- Is done with all it is given. -/
def listener : Handler Unit where
  onReceived _ given := ((), [], .consumed given.length)

/-- The drain of a connection has two segments to send. -/
def outgoing : Connection Unit :=
  { Connection.start () 8 with threads := [[.write [[1, 2], [3]] 0]] }

/-- The socket takes one byte at a time, and somebody disconnects after the first one. -/
theorem lossless_byteByByte :
    let batch : List Bytes := [[1, 2], [3]]
    let answers : List Answer := [.took 1, .took 1, .took 1]
    [] ∉ batch ∧ Accepts batch answers ∧ writeAll answers batch = (.written 3, [1, 2, 3]) ∧
      ∃ c, Connection.Writes listener 0 [] batch c answers [1, 2, 3] ∧ c.isConnected = false ∧
        c.threads[0]? = some [.complete 3] := by
  intro batch answers
  have filled : [] ∉ batch := by decide
  have accepts : Accepts batch answers :=
    .part _ 1 _ (by decide) (by decide) <| .part _ 1 _ (by decide) (by decide) <|
      .part _ 1 _ (by decide) (by decide) (.rest _)
  have whole := ((lossless batch).ends answers filled accepts).2 rfl
  let first := { outgoing with outbox := [1], threads := [[.write [[2], [3]] 1]] }
  let alone := { first with isConnected := false }
  let second := { alone with outbox := [1, 2], threads := [[.write [[3]] 2]] }
  let third := { second with outbox := [1, 2, 3], threads := [[.complete 3]] }
  have writes : Connection.Writes listener 0 [] batch first [.took 1] [1] :=
    .offer outgoing first [] (.took 1) [] (.begin outgoing rfl) rfl
  have writes : Connection.Writes listener 0 [] batch second [.took 1, .took 1] [1, 2] :=
    .offer alone second _ (.took 1) _ (.meanwhile first alone _ _ writes rfl) rfl
  have writes : Connection.Writes listener 0 [] batch third answers [1, 2, 3] :=
    .offer second third _ (.took 1) _ writes rfl
  have done := (lossless batch).drains listener 0 [] _ answers _ (List.cons_ne_nil _ _) writes
  rw [whole] at done
  exact ⟨filled, accepts, whole, third, writes, rfl, done.2⟩

/-- An empty segment at the end stalls: there is nothing in it that the socket could take. -/
example : writeAll [.took 1, .took 0] [[1], []] = (.stalled, [1]) := rfl

end ChatHall.Session
