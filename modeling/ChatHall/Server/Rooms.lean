/-
# The register of rooms

A room is made when it is first asked for, with a queue of its own, and given up
when its last member has left, except for the default room. An entrance counts
as pending from the moment it is asked for, under the same lock as the look-up,
so a room with a queued entrance is not given up. What changes the members is
pushed to the queue of the room.
-/

import ChatHall.Server.Delivery

namespace ChatHall.Server.World

def findRoom? (w : World) (h : HallRef) (name : String) : Option RoomRef :=
  (w.hall? h).bind fun hall => hall.rooms.find? name

/-- The room of that name, which is made and registered if there is none. -/
def getOrCreateRoom (w : World) (h : HallRef) (name : String) : World × RoomRef :=
  match w.findRoom? h name with
  | some r => (w, r)
  | none =>
    let (pool, queue) := w.pool.getOrCreate (roomQueueName name)
    let w := w.withPool pool
    let r := w.state.rooms.length
    let w := w.mapHouse fun s => { s with rooms := s.rooms ++ [{ hall := h, name, queue }] }
    (w.modifyHall h fun hall => { hall with rooms := hall.rooms.insert name r }, r)

def pushEnter (w : World) (r : RoomRef) (c : ClientRef) : World :=
  (w.modifyRoom r fun room => { room with pendingEnters := room.pendingEnters + 1 }).pushToRoom r
    (.enter c)

/-- Asks for the entrance of a client into the room of that name. -/
def enterRoom (w : World) (h : HallRef) (name : String) (c : ClientRef) : World × RoomRef :=
  let (w, r) := w.getOrCreateRoom h name
  (w.pushEnter r c, r)

def pushLeave (w : World) (r : RoomRef) (playerId : Nat) : World :=
  w.pushToRoom r (.leave playerId)

/-- Asks for a room to be given up if it has become vacant; a default room never is. -/
def pushTidy (w : World) (r : RoomRef) : World :=
  match (w.room? r).bind fun room => (w.hall? room.hall).map fun hall => (room, hall) with
  | some (room, hall) =>
    if room.name = hall.defaultRoom then w else w.pushToRoom r .tidy
  | none => w

/-- Asks for a player to leave a room and for the room to be given up then. -/
def leaveRoom (w : World) (r : RoomRef) (playerId : Nat) : World :=
  (w.pushLeave r playerId).pushTidy r

/-- Gives a room and its queue up if it is still the registered one and vacant. -/
def removeIfVacant (w : World) (r : RoomRef) : World :=
  match w.room? r with
  | none => w
  | some room =>
    if w.findRoom? room.hall room.name = some r && room.isVacant then
      let w := w.withPool (w.pool.remove (roomQueueName room.name)).1
      w.modifyHall room.hall fun hall => { hall with rooms := hall.rooms.erase room.name }
    else w

def performRoomTask (w : World) (r : RoomRef) (task : RoomTask) : World :=
  match task with
  | .enter c =>
    match w.client? c with
    | none => w
    | some client =>
      let w := w.modifyRoom r fun room =>
        let members := room.members.insert client.sessionId c
        { room with
          members
          memberCount := members.size
          pendingEnters := room.pendingEnters - 1 }
      w.sendUpdate r .entered (some client.sessionId)
  | .leave playerId =>
    let removed := ((w.room? r).map fun room => room.members.contains playerId).getD false
    let w := w.modifyRoom r fun room =>
      let members := room.members.erase playerId
      { room with members, memberCount := members.size }
    if removed then w.sendUpdate r .left (some playerId) else w
  | .say playerId message =>
    w.broadcast r (.broadcast {
      playerId := UInt64.ofNat playerId
      message
      timestamp := w.state.clock })
  | .announce => w.sendUpdate r .snapshot none
  | .tidy => w.removeIfVacant r

end ChatHall.Server.World
