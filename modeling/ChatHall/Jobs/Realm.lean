/-
# Realms

A pool of queues together with the state that their jobs work on. A drain moves
in single steps: it takes a job, performs it stage by stage, counts it as done,
and looks again before it stops. Any order of such steps among the drains is a
possible course of events; `settle` is the one in which the first of a list of
queues that can move does.
-/

import ChatHall.Jobs.Pool

namespace ChatHall.Jobs

/-- What one stage of a job comes to. -/
inductive Progress (J : Type)
  | finished (outcome : Except Failure Unit)
  /-- The job goes on with another stage. -/
  | continues (job : J)
  /-- The job cannot go on yet. -/
  | blocked

/-- A job that failed, and the queue it was on. -/
structure Report where
  queue : QueueRef
  failure : Failure
  deriving Repr, DecidableEq

/-- A pool whose jobs have type `J` and work on a state of type `σ`. -/
structure Realm (J σ : Type) where
  pool : Pool J := {}
  state : σ
  /-- The failures, in order. -/
  reports : List Report := []

namespace Realm

variable {J σ : Type}

def updatePool (r : Realm J σ) (f : Pool J → Pool J) : Realm J σ := { r with pool := f r.pool }

def updateState (r : Realm J σ) (f : σ → σ) : Realm J σ := { r with state := f r.state }

def push (r : Realm J σ) (q : QueueRef) (job : J) : Realm J σ := r.updatePool (·.push q job)

def phase? (r : Realm J σ) (q : QueueRef) (i : Nat) : Option (Phase J) :=
  (r.pool.queue? q).bind fun queue => queue.drains[i]?

/-- How a stage of a job on a queue changes the realm. -/
abbrev Conduct (J σ : Type) := QueueRef → J → Realm J σ → Realm J σ × Progress J

variable (perform : Conduct J σ)

/-- One step of drain `i` of a queue, or nothing if it cannot move. -/
def advance? (r : Realm J σ) (q : QueueRef) (i : Nat) : Option (Realm J σ) :=
  match r.phase? q i with
  | none => none
  | some .fetching => some (r.updatePool (·.modify q (·.fetch i)))
  | some .rechecking => some (r.updatePool (·.modify q (·.recheck i)))
  | some (.executing job) =>
    match perform q job r with
    | (r, .finished outcome) =>
      let r := r.updatePool (·.modify q (·.finish i outcome))
      match outcome with
      | .ok () => some r
      | .error failure => some { r with reports := r.reports ++ [⟨q, failure⟩] }
    | (r, .continues job) => some (r.updatePool (·.modify q (·.setPhase i (.executing job))))
    | (_, .blocked) => none

/-- One step of the first of some queues that can move. -/
def advanceFirst? (r : Realm J σ) (order : List QueueRef) : Option (Realm J σ) :=
  order.findSome? fun q => r.advance? perform q 0

/-- Steps of the first queue that can move, in an order that may change, as long as there
is fuel. -/
def settleWith (order : Realm J σ → List QueueRef) : (fuel : Nat) → Realm J σ → Realm J σ
  | 0, r => r
  | fuel + 1, r =>
    match r.advanceFirst? perform (order r) with
    | some r => settleWith order fuel r
    | none => r

/-- An upper bound on the steps of all queues if that of a job is given. -/
def fuel (cost : J → Nat) (r : Realm J σ) : Nat :=
  let jobs (queue : Queue J) : List J :=
    queue.waiting ++ queue.drains.filterMap fun
      | .executing job => some job
      | _ => none
  let drains := r.pool.queues.flatMap Queue.drains
  (r.pool.queues.flatMap jobs).foldl (fun total job => total + cost job + 4) (4 * drains.length)

/-- Steps until no queue can move. -/
def settle (cost : J → Nat) (order : Realm J σ → List QueueRef) (r : Realm J σ) : Realm J σ :=
  settleWith perform order (r.fuel cost) r

def allQueues (r : Realm J σ) : List QueueRef := List.range r.pool.queues.length

/-- The steps of all drains, in any order. -/
inductive Step : Realm J σ → Realm J σ → Prop
  | advance (r s : Realm J σ) (q : QueueRef) (i : Nat) (moves : r.advance? perform q i = some s) :
      Step r s

end Realm

end ChatHall.Jobs
