/-
# What sessions do

The stages of the jobs on the queue of a session. A client is in at most one
room: whoever joins another one leaves the current one first. Every command is
answered; a chat that went through is answered by its broadcast.
-/

import ChatHall.Server.Rooms

namespace ChatHall.Server.World

open ChatHall.Jobs (Progress)

def succeed (w : World) : World × Progress Job := (w, .finished (.ok ()))

def failWith (w : World) (message : String) : World × Progress Job :=
  (w, .finished (.error (.error message)))

def goOn (w : World) (c : ClientRef) (task : SessionTask) : World × Progress Job :=
  (w, .continues (.session c task))

/-- Answers a client; an answer that cannot be sent fails the job. -/
def answer (w : World) (c : ClientRef) (response : Chat.Response) : World × Progress Job :=
  match w.send c (.response response) with
  | .ok w => w.succeed
  | .error e => w.failWith e.message

/-- Tells a client why its request is refused, and fails the job with that. -/
def reject (w : World) (c : ClientRef) (e : Chat.Error) : World × Progress Job :=
  (w.trySend c (.response (.error e.message))).failWith e.message

/-- Asks the current room to pass a message on. -/
def chat (w : World) (c : ClientRef) (client : Client) (message : String) :
    Except Chat.Error World := do
  Chat.validateMessage message
  match w.currentRoom? c with
  | none => .error (.notInRoom client.sessionId)
  | some (r, _) => .ok (w.pushToRoom r (.say client.sessionId message))

/-- Joins a room; in the current one only the members are announced. -/
def join (w : World) (c : ClientRef) (room : String) (asked : Bool) : World × Progress Job :=
  match w.currentRoom? c with
  | some (r, current) =>
    if current.name = room then
      let w := w.pushToRoom r .announce
      if asked then w.goOn c (.going (.answer (.joined true room))) else w.succeed
    else w.goOn c (.leaving (.enter room asked))
  | none => w.goOn c (.leaving (.enter room asked))

def takePacket (w : World) (c : ClientRef) (client : Client) (id : UInt16) (payload : Bytes) :
    World × Progress Job :=
  let outcome : Except Chat.Error World := do
    match ← Chat.PacketKind.ofId id with
    | .utterance =>
      let utterance ← Chat.Utterance.decode Chat.PacketKind.utterance.id payload
      w.chat c client utterance.message
    | .broadcast | .roomUpdate => .error (.badCommand s!"서버 전용 패킷: {id}")
  match outcome with
  | .ok w => w.succeed
  | .error e => w.failWith e.message

def takeCommand (w : World) (c : ClientRef) (client : Client) (text : String) :
    World × Progress Job :=
  match Chat.Command.decode text with
  | .error e => w.reject c e
  | .ok (.joinRoom room) => w.join c room true
  | .ok (.leaveRoom room) =>
    if (w.findRoom? client.hall room).isNone then w.reject c (.roomNotFound room)
    else
      let inside := (w.currentRoom? c).any fun (_, current) => current.name = room
      let next := Next.answer (.left inside room)
      w.goOn c (if inside then .leaving next else .going next)
  | .ok (.sendMessage message) =>
    match w.chat c client message with
    | .ok w => w.succeed
    | .error e => w.reject c e

/-- Goes on after a room has been left. -/
def go (w : World) (c : ClientRef) (client : Client) (next : Next) : World × Progress Job :=
  match next with
  | .enter room asked =>
    let (w, r) := w.enterRoom client.hall room c
    w.goOn c (.arriving r room asked)
  | .answer response => w.answer c response
  | .retire =>
    (w.withPool (w.pool.remove (sessionQueueName client.sessionId)).1).succeed

def performSessionTask (w : World) (c : ClientRef) (client : Client) (task : SessionTask) :
    World × Progress Job :=
  match task with
  | .welcome =>
    match w.hall? client.hall with
    | some hall => w.join c hall.defaultRoom false
    | none => w.succeed
  | .packet id payload => w.takePacket c client id payload
  | .command text => w.takeCommand c client text
  | .farewell => w.goOn c (.leaving .retire)
  | .leaving next =>
    match client.room with
    | none => w.goOn c (.going next)
    | some r =>
      let w := w.modifyClient c fun client => { client with room := none }
      (w.pushLeave r client.sessionId).goOn c (.tidying r next)
  | .tidying r next => (w.pushTidy r).goOn c (.going next)
  | .going next => w.go c client next
  | .arriving r room asked =>
    let w := w.modifyClient c fun client => { client with room := some r }
    if asked then w.goOn c (.going (.answer (.joined true room))) else w.succeed

def perform : Jobs.Realm.Conduct Job House := fun _ job w =>
  match job with
  | .room r task => succeed (performRoomTask w r task)
  | .session c task =>
    match client? w c with
    | some client => performSessionTask w c client task
    | none => succeed w
  | .hold gate =>
    if gate ∈ w.state.gates then succeed (w.updateState (·.passGate gate)) else (w, .blocked)

def sessionsFirst (w : World) : List Jobs.QueueRef :=
  w.state.clients.map Client.queue ++ (w.state.rooms.map Room.queue).eraseDups

/-- Runs all queues until each is empty or held, those of the sessions first. -/
def settle (w : World) : World := Jobs.Realm.settle perform Job.cost sessionsFirst w

end ChatHall.Server.World
