/-
# Pools of queues

Queues by name. A name can be given to another queue or taken away at any time;
whoever holds the old queue goes on using it, so a queue is known by a reference
of its own and the names are a table beside the queues.
-/

import ChatHall.Jobs.Queue
import ChatHall.Table

namespace ChatHall.Jobs

/-- A queue's place in its pool. -/
abbrev QueueRef := Nat

/-- All queues ever made, and the registered ones by name. -/
structure Pool (J : Type) where
  queues : List (Queue J) := []
  names : Table String QueueRef := {}
  deriving Repr, DecidableEq

namespace Pool

variable {J : Type}

def queue? (p : Pool J) (q : QueueRef) : Option (Queue J) := p.queues[q]?

def modify (p : Pool J) (q : QueueRef) (f : Queue J → Queue J) : Pool J :=
  { p with queues := p.queues.modify q f }

/-- A new queue, not registered. -/
def create (p : Pool J) (name : String) : Pool J × QueueRef :=
  ({ p with queues := p.queues ++ [{ name }] }, p.queues.length)

def find? (p : Pool J) (name : String) : Option QueueRef := p.names.find? name

/-- The queue under a name, which is made and registered if there is none. -/
def insertIfAbsent (p : Pool J) (name : String) : Pool J × QueueRef :=
  match p.find? name with
  | some q => (p, q)
  | none =>
    let (p, q) := p.create name
    ({ p with names := p.names.insert name q }, q)

/-- The queue under a name: looked up first, and made in a second step if needed. -/
def getOrCreate (p : Pool J) (name : String) : Pool J × QueueRef :=
  match p.find? name with
  | some q => (p, q)
  | none => p.insertIfAbsent name

/-- Registers a queue under its own name, in place of any other. -/
def register (p : Pool J) (q : QueueRef) : Pool J :=
  match p.queue? q with
  | some queue => { p with names := p.names.insert queue.name q }
  | none => p

def remove (p : Pool J) (name : String) : Pool J × Option QueueRef :=
  ({ p with names := p.names.erase name }, p.find? name)

def push (p : Pool J) (q : QueueRef) (job : J) : Pool J := p.modify q fun queue => queue.push job

def pushNamed (p : Pool J) (name : String) (job : J) : Pool J :=
  let (p, q) := p.getOrCreate name
  p.push q job

def waitingByName (p : Pool J) : List (String × Nat) :=
  p.names.entries.map fun (name, q) => (name, ((p.queue? q).map Queue.size).getD 0)

end Pool

end ChatHall.Jobs
