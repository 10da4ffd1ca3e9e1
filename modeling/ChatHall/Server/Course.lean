/-
# Courses of events

Everything that can happen to the halls, one atomic step at a time. The steps of
different clients, queues and callers may come in any order, so a property of all
courses is one of the concurrent server.
-/

import ChatHall.Server.Visit

namespace ChatHall.Server

/-- One atomic step. -/
inductive Event
  /-- A hall is opened. -/
  | openHall (defaultRoom : String)
  /-- Somebody asks for a room. -/
  | room (h : HallRef) (name : String)
  /-- Somebody asks for the entrance of a client. -/
  | enterRoom (h : HallRef) (name : String) (c : ClientRef)
  /-- Somebody asks for a player to leave, maybe with an old reference to the room. -/
  | leaveRoom (r : RoomRef) (playerId : Nat)
  /-- Somebody asks for a room to be given up if vacant. -/
  | tidyRoom (r : RoomRef)
  /-- A connection is accepted. -/
  | accept (h : HallRef)
  /-- The session of the connection in hand starts, unless its socket has failed. -/
  | start (h : HallRef) (works : Bool)
  /-- The server takes the next step in noticing a connection. -/
  | arrive (c : ClientRef)
  /-- A packet arrives. -/
  | packet (c : ClientRef) (p : Wire.Packet)
  /-- The server takes the next step in noticing the end of a connection. -/
  | depart (c : ClientRef)
  /-- The session is gone. -/
  | release (c : ClientRef)
  /-- Drain `i` of a queue takes its next step. -/
  | work (q : Jobs.QueueRef) (i : Nat)
  /-- A hall that is shut down accepts no more connections. -/
  | stop (h : HallRef)
  /-- A shutdown looks which sessions there are. -/
  | lookAround (h : HallRef)
  /-- A shutdown disconnects the next of the sessions it has seen. -/
  | dismiss (h : HallRef)
  deriving Repr, DecidableEq

namespace World

/-- The next step in noticing a connection. -/
def arriveStep? (w : World) (c : ClientRef) : Option World := do
  let client ← w.client? c
  if client.link = .none && client.departure = .unnoticed then none
  else
    match client.arrival with
    | .unnoticed => some (w.attach c)
    | .attached => some (w.registerQueue c)
    | .registered => some (w.enlist c)
    | .enlisted => some (w.greet c)
    | .greeted => none

/-- The next step in noticing the end of a connection. Nobody has the session of a client, nor has
it begun to receive, until the client is among the sessions of its hall. -/
def departStep? (w : World) (c : ClientRef) : Option World := do
  let client ← w.client? c
  match client.departure with
  | .unnoticed =>
    if client.arrival.isEnlisted && client.isConnected then some (w.close c) else none
  | .closing => some (w.delist c)
  | .delisted => some (w.seeOff c)
  | .seenOff => none

/-- The next connection is accepted: one at a time, while the hall is open. -/
def acceptStep? (w : World) (h : HallRef) : Option World := do
  let hall ← w.hall? h
  if hall.accepting && hall.inHand.isNone then some (w.takeInHand h).1 else none

/-- The session of the connection in hand starts if its socket works. -/
def startStep? (w : World) (h : HallRef) (works : Bool) : Option World := do
  let hall ← w.hall? h
  let c ← hall.inHand
  let w := w.modifyHall h fun hall => { hall with inHand := none }
  some (if works then w.startSession c else w)

/-- The next step of a shutdown that has looked: it disconnects a session, or finds it
disconnected. -/
def dismissStep? (w : World) (h : HallRef) : Option World := do
  let hall ← w.hall? h
  match ← hall.dismissing with
  | [] => none
  | c :: later =>
    let w := w.modifyHall h fun hall => { hall with dismissing := some later }
    some (if (w.client? c).any Client.isConnected then w.close c else w)

def isShutDown (w : World) (h : HallRef) : Bool :=
  (w.hall? h).any fun hall => hall.dismissing = some []

/-- The world after an event, if the event is possible. -/
def after? (w : World) : Event → Option World
  | .openHall defaultRoom =>
    let (w, h) := w.openHall defaultRoom
    some (w.getOrCreateRoom h defaultRoom).1
  | .room h name => if h < w.state.halls.length then some (w.getOrCreateRoom h name).1 else none
  | .enterRoom h name c =>
    if h < w.state.halls.length && c < w.state.clients.length then
      some (w.enterRoom h name c).1
    else none
  | .leaveRoom r playerId =>
    if r < w.state.rooms.length then some (w.leaveRoom r playerId) else none
  | .tidyRoom r => if r < w.state.rooms.length then some (w.pushTidy r) else none
  | .accept h => w.acceptStep? h
  | .start h works => w.startStep? h works
  | .arrive c => w.arriveStep? c
  | .packet c p =>
    if (w.client? c).any fun client => client.arrival = .greeted && client.link ≠ .none then
      some (w.dispatch c p)
    else none
  | .depart c => w.departStep? c
  | .release c =>
    if (w.client? c).any fun client =>
        client.arrival = .greeted && client.link = .closed && client.departure = .seenOff then
      some (w.release c)
    else none
  | .work q i => Jobs.Realm.advance? perform w q i
  | .stop h => if (w.hall? h).any Hall.accepting then some (w.stopAccepting h) else none
  | .lookAround h =>
    if (w.hall? h).any fun hall => !hall.accepting && hall.dismissing.isNone then
      some (w.lookAround h)
    else none
  | .dismiss h => w.dismissStep? h

def afterAll? (w : World) (events : List Event) : Option World := events.foldlM after? w

end World

end ChatHall.Server
