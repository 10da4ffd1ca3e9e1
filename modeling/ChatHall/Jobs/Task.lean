/-
# Tasks

Jobs described by what they do: leave a note, fail in one of the possible ways,
push another task, or hold the queue until a gate opens. An opening lets one task
through.
-/

import ChatHall.Jobs.Realm

namespace ChatHall.Jobs

inductive Task
  | note (text : String)
  /-- An error with contexts around it, innermost first. -/
  | fail (message : String) (contexts : List String)
  | panic (p : Panic)
  /-- Notes that it pushes, and pushes. -/
  | push (note : String) (target : QueueRef) (task : Task)
  | hold (gate : String)
  deriving Repr, DecidableEq

/-- The notes and the gates of a realm of tasks. -/
structure Bench where
  /-- The notes with the queues on which they were left, in order. -/
  notes : List (QueueRef × String) := []
  /-- The gates that are open, each as often as it lets a task through. -/
  gates : List String := []
  deriving Repr, DecidableEq

def Bench.openGate (b : Bench) (gate : String) : Bench := { b with gates := gate :: b.gates }

def Bench.passGate (b : Bench) (gate : String) : Bench := { b with gates := b.gates.erase gate }

namespace Task

/-- An error behind the contexts around it. -/
def chain (message : String) (contexts : List String) : String :=
  ": ".intercalate (contexts.reverse ++ [message])

def leave (q : QueueRef) (text : String) (r : Realm Task Bench) : Realm Task Bench :=
  r.updateState fun b => { b with notes := b.notes ++ [(q, text)] }

def perform : Realm.Conduct Task Bench := fun q task r =>
  match task with
  | note text => (leave q text r, .finished (.ok ()))
  | fail message contexts => (r, .finished (.error (.error (chain message contexts))))
  | panic p => (r, .finished (.error (.panic p)))
  | push text target task => ((leave q text r).push target task, .finished (.ok ()))
  | hold gate =>
    if gate ∈ r.state.gates then (r.updateState (·.passGate gate), .finished (.ok ()))
    else (r, .blocked)

/-- An upper bound on the steps that a task takes and causes. -/
def cost : Task → Nat
  | push _ _ task => task.cost + 9
  | _ => 1

def settle (r : Realm Task Bench) : Realm Task Bench :=
  r.settle perform cost Realm.allQueues

end Task

end ChatHall.Jobs
