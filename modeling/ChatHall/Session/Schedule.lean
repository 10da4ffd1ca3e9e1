/-
# An orderly course

The course of a connection in which the first thread that can move does, a
cancelled loop stops, a read takes all that fits, and the socket takes all that
it is offered.
-/

import ChatHall.Session.Connection

namespace ChatHall.Session.Connection

variable {σ : Type} (handler : Handler σ)

/-- What decides an operation in an orderly course, unless it has to wait. -/
def orderly? (c : Connection σ) : Operation → Option Choice
  | .await =>
    if c.isCancelled then some .cancelled
    else if c.inbox.isEmpty then (if c.peerClosed then some .ended else none)
    else some (.moved (min c.receiver.buffer.freeSize c.inbox.length))
  | .write left _ => some (if c.isCancelled then .cancelled else .moved left.flatten.length)
  | _ => some .plain

/-- The next operation of thread `i` in an orderly course. -/
def orderlyStep? (c : Connection σ) (i : Nat) : Option (Connection σ) := do
  let thread ← c.threads[i]?
  let choice ← c.orderly? (← thread.head?)
  c.step? handler i choice

/-- Operations of the first thread that can move, as long as there is fuel. -/
def settleWith : (fuel : Nat) → Connection σ → Connection σ
  | 0, c => c
  | fuel + 1, c =>
    match (List.range c.threads.length).findSome? (c.orderlyStep? handler) with
    | some c => settleWith fuel c
    | none => c

/-- Operations until no thread can move; finished threads are forgotten. A byte read and
an operation cause only so many further ones. -/
def settle (c : Connection σ) : Connection σ :=
  let fuel := 64 * (c.inbox.length + c.sendQueue.length + c.threads.flatten.length + 4)
  let c := settleWith handler fuel c
  { c with threads := c.threads.filter fun thread => !thread.isEmpty }

/-- Somebody sends or disconnects. -/
def request (c : Connection σ) (a : Action) : Connection σ := settle handler (c.spawn [.act a])

/-- The peer sends; a connection that has ended does not listen. -/
def receive (c : Connection σ) (data : Bytes) : Connection σ :=
  if c.isConnected then settle handler { c with inbox := c.inbox ++ data } else c

def finishReceiving (c : Connection σ) : Connection σ := settle handler { c with peerClosed := true }

end ChatHall.Session.Connection
