/-
# Connections

A connection as the threads that work on it: the receive loop, the loops that
drain the send queue, the tasks that shut the socket down, and whoever sends or
disconnects. Each thread is the list of what it has still to do, and each
operation in such a list is one atomic step. Where the socket or a choice between
two ready events decides, the step is told what happened.

A hook runs on the thread that calls it: what it does comes before the rest of
that thread.
-/

import ChatHall.Buffer.Scatter
import ChatHall.Session.Receiver

namespace ChatHall.Session

/-- The hooks but the one for bytes. -/
inductive Hook
  | connected
  | sent (n : Nat)
  | disconnected
  deriving Repr, DecidableEq

def Hook.name : Hook → String
  | connected => "on_connected"
  | sent _ => "on_send"
  | disconnected => "on_disconnected"

/-- One atomic operation of a thread. -/
inductive Operation
  /-- What a caller asks for: sending starts with a look at the connection, and
  disconnecting with claiming the one disconnect. -/
  | act (a : Action)
  /-- Puts the segments into the send queue and starts a drain if none is pending. -/
  | enqueue (segments : List Bytes)
  | call (hook : Hook)
  | complain (hook : Hook) (p : Panic)
  /-- Tells the receive loop to stop. -/
  | cancel
  /-- Starts the task that shuts the socket down. -/
  | startClosing
  /-- The receive loop makes room. -/
  | prepare
  /-- The receive loop waits for bytes. -/
  | await
  /-- The receive loop hands the waiting bytes over. -/
  | deliver
  | judge (verdict : Verdict)
  /-- Waits for the write half of the socket. -/
  | lock
  | unlock
  /-- Takes all queued segments, or ends the drain. -/
  | collect
  /-- Looks whether there is a write half to write a batch to. -/
  | begin (batch : List Bytes)
  /-- Offers the segments to the socket, which has taken `done` bytes of the batch. -/
  | write (left : List Bytes) (done : Nat)
  /-- Counts a batch as sent. -/
  | complete (n : Nat)
  /-- Lowers the pending flag and drops what is queued. -/
  | clearPending
  /-- Takes the write half away and shuts it down. -/
  | takeWriter
  | clearQueue
  deriving Repr, DecidableEq

/-- What decides a step that depends on the socket. -/
inductive Choice
  /-- Nothing has to be decided. -/
  | plain
  /-- The loop is told to stop. -/
  | cancelled
  /-- So many bytes were read or written. -/
  | moved (n : Nat)
  /-- The socket failed, or has come to its end. -/
  | ended
  deriving Repr, DecidableEq

/-- What happened on a connection, as far as its users notice. -/
inductive Notice
  | called (hook : Hook)
  | received (given : Bytes) (verdict : Verdict)
  | accepted (segments : List Bytes)
  | refused
  deriving Repr, DecidableEq

structure Connection (σ : Type) where
  state : σ
  receiver : Receiver
  isConnected : Bool := true
  isCancelled : Bool := false
  sendQueue : List Bytes := []
  /-- Whether a drain is said to be alive. -/
  pending : Bool := false
  /-- Whether the write half is still there. -/
  hasWriter : Bool := true
  /-- Whether some thread has the write half. -/
  isLocked : Bool := false
  threads : List (List Operation) := []
  /-- What the peer has sent and nobody has read. -/
  inbox : Bytes := []
  /-- Whether the peer will send nothing more. -/
  peerClosed : Bool := false
  /-- What the socket has taken. -/
  outbox : Bytes := []
  /-- Whether the socket has failed to take something. -/
  isBroken : Bool := false
  bytesSent : Nat := 0
  notices : List Notice := []
  log : List Log.Entry := []

namespace Connection

variable {σ : Type}

/-- A connection whose receive loop is about to start. -/
def start (state : σ) (bufferSize : Nat) : Connection σ where
  state
  receiver := Receiver.new bufferSize
  threads := [[.call .connected, .prepare]]

def note (c : Connection σ) (n : Notice) : Connection σ := { c with notices := c.notices ++ [n] }

def logEntry (c : Connection σ) (e : Log.Entry) : Connection σ := { c with log := c.log ++ [e] }

def spawn (c : Connection σ) (thread : List Operation) : Connection σ :=
  { c with threads := c.threads ++ [thread] }

def endLoop (c : Connection σ) (e : Ending) : Connection σ × List Operation :=
  let c :=
    match e.entry? with
    | some entry => c.logEntry entry
    | none => c
  (c, [.act .disconnect])

/-- What a caller asks for. The operations that come back are the rest of it. -/
def act (c : Connection σ) : Action → Connection σ × List Operation
  | .send segment =>
    if !c.isConnected then (c.note .refused, [])
    else if segment.isEmpty then (c.note (.accepted []), [])
    else (c, [.enqueue [segment]])
  | .sendMany segments =>
    if !c.isConnected then (c.note .refused, [])
    else (c, [.enqueue (segments.filter fun s => !s.isEmpty)])
  | .disconnect =>
    if c.isConnected then
      ({ c with isConnected := false }.logEntry ⟨.info, logTarget, "세션 연결 종료", []⟩,
        [.call .disconnected, .cancel, .startClosing])
    else (c, [])

def enqueue (c : Connection σ) (segments : List Bytes) : Connection σ :=
  let c := { c with sendQueue := c.sendQueue ++ segments }.note (.accepted segments)
  if !c.pending && !c.sendQueue.isEmpty then
    { c with pending := true }.spawn [.lock, .collect]
  else c

def call (handler : Handler σ) (c : Connection σ) (hook : Hook) :
    Connection σ × List Operation :=
  let reaction :=
    match hook with
    | .connected => handler.onConnected c.state
    | .sent n => handler.onSent c.state n
    | .disconnected => handler.onDisconnected c.state
  let complaint :=
    match reaction.panic? with
    | some p => [Operation.complain hook p]
    | none => []
  ({ c with state := reaction.state }.note (.called hook),
    reaction.actions.map .act ++ complaint)

/-- What the receive loop does with what it waited for, if that can have happened. -/
def await? (c : Connection σ) : Choice → Option (Connection σ × List Operation)
  | .plain => none
  | .cancelled => if c.isCancelled then some (c, [.act .disconnect]) else none
  | .ended => some (c, [.act .disconnect])
  | .moved n =>
    if 0 < n && n ≤ c.receiver.buffer.freeSize && n ≤ c.inbox.length then
      let c' := { c with inbox := c.inbox.drop n }
      some <|
        match c.receiver.takeIn (c.inbox.take n) with
        | .ok receiver => ({ c' with receiver }, [.deliver])
        | .error e => c'.endLoop e
    else none

def deliver (handler : Handler σ) (c : Connection σ) : Connection σ × List Operation :=
  let given := c.receiver.buffer.waiting
  let (state, actions, verdict) := handler.onReceived c.state given
  ({ c with state }.note (.received given verdict), actions.map .act ++ [.judge verdict])

/-- All queued segments are taken, or the drain ends. -/
def collect (c : Connection σ) : Connection σ × List Operation :=
  if c.sendQueue.isEmpty || !c.isConnected then
    ({ c with pending := false, sendQueue := [] }, [.unlock])
  else ({ c with sendQueue := [] }, [.begin c.sendQueue])

/-- What becomes of an offer to the socket, if that can have happened. -/
def write? (c : Connection σ) (left : List Bytes) (done : Nat) :
    Choice → Option (Connection σ × List Operation)
  | .plain => none
  | .cancelled => if c.isCancelled then some (c, [.clearPending, .unlock]) else none
  | .ended => some ({ c with isBroken := true }, [.unlock, .clearPending, .act .disconnect])
  | .moved n =>
    if 0 < n && n ≤ left.flatten.length && !c.isBroken then
      let c := { c with outbox := c.outbox ++ left.flatten.take n }
      some (c,
        match Buffer.Scatter.advance left n with
        | [] => [.complete (done + n)]
        | left => [.write left (done + n)])
    else none

/-- One operation, if it can be done with this choice: the connection after it and what
the thread has to do in its place. -/
def perform? (handler : Handler σ) (c : Connection σ) (o : Operation) (choice : Choice) :
    Option (Connection σ × List Operation) :=
  match o, choice with
  | .await, choice => c.await? choice
  | .write left done, choice => c.write? left done choice
  | .act a, .plain => some (c.act a)
  | .enqueue segments, .plain => some (c.enqueue segments, [])
  | .call hook, .plain => some (c.call handler hook)
  | .complain hook p, .plain => some (c.logEntry (panicEntry hook.name p), [])
  | .cancel, .plain => some ({ c with isCancelled := true }, [])
  | .startClosing, .plain => some (c.spawn [.lock, .takeWriter, .unlock, .clearQueue], [])
  | .prepare, .plain =>
    some <|
      match c.receiver.prepare with
      | .ok receiver => ({ c with receiver }, [.await])
      | .error e => c.endLoop e
  | .deliver, .plain => some (c.deliver handler)
  | .judge verdict, .plain =>
    some <|
      match c.receiver.judge verdict with
      | .ok receiver => ({ c with receiver }, [.prepare])
      | .error e => c.endLoop e
  | .lock, .plain => if c.isLocked then none else some ({ c with isLocked := true }, [])
  | .unlock, .plain => some ({ c with isLocked := false }, [])
  | .collect, .plain => some c.collect
  | .begin batch, .plain =>
    some (c, if c.hasWriter then [.write batch 0] else [.clearPending, .unlock])
  | .complete n, .plain =>
    some ({ c with bytesSent := c.bytesSent + n }, [.call (.sent n), .collect])
  | .clearPending, .plain => some ({ c with pending := false, sendQueue := [] }, [])
  | .takeWriter, .plain => some ({ c with hasWriter := false }, [])
  | .clearQueue, .plain => some ({ c with sendQueue := [] }, [])
  | _, _ => none

/-- The connection after the next operation of thread `i`, if it can be done with this
choice. -/
def step? (handler : Handler σ) (c : Connection σ) (i : Nat) (choice : Choice) :
    Option (Connection σ) :=
  match c.threads[i]? with
  | some (o :: rest) =>
    (c.perform? handler o choice).map fun (c, first) =>
      { c with threads := c.threads.set i (first ++ rest) }
  | _ => none

/-- The steps of all threads, in any order and with any choices. -/
inductive Step (handler : Handler σ) : Connection σ → Connection σ → Prop
  | thread (c d : Connection σ) (i : Nat) (choice : Choice)
      (moves : c.step? handler i choice = some d) : Step handler c d
  /-- Somebody sends or disconnects. -/
  | caller (c : Connection σ) (a : Action) : Step handler c (c.spawn [.act a])
  /-- The peer sends. -/
  | peerSends (c : Connection σ) (data : Bytes) (h : c.peerClosed = false) :
      Step handler c { c with inbox := c.inbox ++ data }
  /-- The peer sends nothing more. -/
  | peerCloses (c : Connection σ) : Step handler c { c with peerClosed := true }

end Connection

end ChatHall.Session
