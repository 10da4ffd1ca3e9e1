/-
# Job queues

A queue runs its jobs one at a time in the order in which they were enqueued,
however many producers there are. A producer counts its job, enqueues it, and
then looks at the running flag; if nobody runs, it starts a drain. A drain takes
jobs until it finds none, looks again with the flag locked, and stops only if
there is still none. Each of these is one atomic step, and a push is the three
steps of a producer in a row.
-/

import ChatHall.Jobs.Failure
import ChatHall.Text.Quoted

namespace ChatHall.Jobs

open ChatHall.Text

/-- Where a drain stands. -/
inductive Phase (J : Type)
  | fetching
  | executing (job : J)
  | rechecking
  deriving Repr, DecidableEq

structure Queue (J : Type) where
  name : String
  /-- The jobs that no drain has taken, oldest first. -/
  waiting : List J := []
  /-- Whether a drain is said to be alive. -/
  running : Bool := false
  /-- The drains that are alive. -/
  drains : List (Phase J) := []
  /-- How many producers have counted a job and not enqueued it. -/
  counting : Nat := 0
  /-- How many producers have enqueued a job and not looked at the flag. -/
  waking : Nat := 0
  pushed : Nat := 0
  executed : Nat := 0
  failed : Nat := 0
  deriving Repr, DecidableEq

namespace Queue

variable {J : Type}

def size (q : Queue J) : Nat := q.waiting.length

def shown (q : Queue J) : String :=
  s!"JobQueue \x7b name: {quoted q.name}, count: {q.size}, running: {q.running} \x7d"

/-! ## Producers -/

/-- Counts a job that is going to be enqueued. -/
def count (q : Queue J) : Queue J := { q with pushed := q.pushed + 1, counting := q.counting + 1 }

/-- Enqueues a job that has been counted. -/
def enqueue (q : Queue J) (job : J) : Queue J :=
  { q with waiting := q.waiting ++ [job], counting := q.counting - 1, waking := q.waking + 1 }

/-- Starts a drain unless one is alive. -/
def wake (q : Queue J) : Queue J :=
  if q.running then { q with waking := q.waking - 1 }
  else { q with running := true, drains := q.drains ++ [.fetching], waking := q.waking - 1 }

def push (q : Queue J) (job : J) : Queue J := (q.count.enqueue job).wake

/-! ## Drains -/

def setPhase (q : Queue J) (i : Nat) (phase : Phase J) : Queue J :=
  { q with drains := q.drains.set i phase }

/-- Drain `i` takes the oldest waiting job, or finds none. -/
def fetch (q : Queue J) (i : Nat) : Queue J :=
  match q.waiting with
  | [] => q.setPhase i .rechecking
  | job :: later => { q.setPhase i (.executing job) with waiting := later }

def finish (q : Queue J) (i : Nat) (outcome : Except Failure Unit) : Queue J :=
  match outcome with
  | .ok () => { q.setPhase i .fetching with executed := q.executed + 1 }
  | .error _ => { q.setPhase i .fetching with failed := q.failed + 1 }

/-- Drain `i` looks again with the flag locked: it stops if there is still no job. -/
def recheck (q : Queue J) (i : Nat) : Queue J :=
  match q.waiting with
  | [] => { q with running := false, drains := q.drains.eraseIdx i }
  | _ :: _ => q.setPhase i .fetching

/-- What a step shows to an observer. -/
inductive Event (J : Type)
  | counted
  | enqueued (job : J)
  | woken
  | started (job : J)
  | foundNone
  | finished (job : J) (outcome : Except Failure Unit)
  | rechecked

/-- The steps of producers and drains, in any order. -/
inductive Step : Queue J → Event J → Queue J → Prop
  | count (q : Queue J) : Step q .counted q.count
  | enqueue (q : Queue J) (job : J) (counted : 0 < q.counting) :
      Step q (.enqueued job) (q.enqueue job)
  | wake (q : Queue J) (enqueued : 0 < q.waking) : Step q .woken q.wake
  | start (q : Queue J) (i : Nat) (job : J) (later : List J)
      (phase : q.drains[i]? = some .fetching) (some_waiting : q.waiting = job :: later) :
      Step q (.started job) (q.fetch i)
  | findNone (q : Queue J) (i : Nat) (phase : q.drains[i]? = some .fetching)
      (none_waiting : q.waiting = []) : Step q .foundNone (q.fetch i)
  | finish (q : Queue J) (i : Nat) (job : J) (outcome : Except Failure Unit)
      (phase : q.drains[i]? = some (.executing job)) :
      Step q (.finished job outcome) (q.finish i outcome)
  | recheck (q : Queue J) (i : Nat) (phase : q.drains[i]? = some .rechecking) :
      Step q .rechecked (q.recheck i)

inductive Run : Queue J → List (Event J) → Queue J → Prop
  | refl (q : Queue J) : Run q [] q
  | step {q r s : Queue J} {seen : List (Event J)} {e : Event J} (run : Run q seen r)
      (last : Step r e s) : Run q (seen ++ [e]) s

end Queue

/-! ## Waiting for an idle queue -/

/-- How far somebody has come who wants to know whether a queue is idle: three counters
and the flag are read one after the other. -/
inductive Probe
  | start
  | sawPushed (pushed : Nat)
  | sawExecuted (pushed executed : Nat)
  | sawFailed (pushed executed failed : Nat)
  | answered (idle : Bool)
  deriving Repr, DecidableEq

namespace Probe

variable {J : Type}

def read (q : Queue J) : Probe → Probe
  | start => sawPushed q.pushed
  | sawPushed pushed => sawExecuted pushed q.executed
  | sawExecuted pushed executed => sawFailed pushed executed q.failed
  | sawFailed pushed executed failed => answered (executed + failed = pushed && !q.running)
  | answered idle => answered idle

end Probe

/-- Whether a queue is idle to somebody who is not interrupted between the reads. -/
def Queue.isIdle {J : Type} (q : Queue J) : Bool :=
  (((Probe.start.read q).read q).read q).read q = .answered true

end ChatHall.Jobs
