/-
# Halls, rooms and clients

The state of one or more chat servers that share a pool of queues. A hall is one
server: its registered rooms and sessions. Rooms and clients are kept for ever,
so that a reference to one that is registered no more still means it.
-/

import ChatHall.Chat.Packet
import ChatHall.Server.Job
import ChatHall.Text.Quoted

namespace ChatHall.Server

open ChatHall.Text

inductive Outgoing
  | response (r : Chat.Response)
  | broadcast (b : Chat.Broadcast)
  | update (u : Chat.RoomUpdate)
  /-- Bytes that were given ready made. -/
  | bytes (frame : Bytes)
  deriving Repr, DecidableEq

def Outgoing.frame : Outgoing → Bytes
  | response r => r.frame
  | broadcast b => b.frame
  | update u => u.frame
  | bytes frame => frame

/-- A room. Its members are touched by jobs of its own queue only. -/
structure Room where
  hall : HallRef
  name : String
  queue : Jobs.QueueRef
  /-- The clients in the room by player id. -/
  members : Table Nat ClientRef := {}
  /-- The number of members as of the last job that changed them. -/
  memberCount : Nat := 0
  /-- How many clients are about to enter. -/
  pendingEnters : Nat := 0
  deriving Repr, DecidableEq

namespace Room

/-- Whether nobody is in the room or about to enter. -/
def isVacant (r : Room) : Bool := r.memberCount = 0 && r.pendingEnters = 0

def shown (r : Room) : String :=
  s!"GameRoom \x7b room_id: {quoted r.name}, member_count: {r.memberCount} \x7d"

end Room

/-- The network session of a client. -/
inductive Link
  /-- There is none: not yet, or no more. -/
  | none
  | connected
  /-- Disconnected, but not gone. -/
  | closed
  deriving Repr, DecidableEq

/-- How far the connection of a client has been taken note of. -/
inductive Arrival
  | unnoticed
  /-- The client knows its session. -/
  | attached
  /-- Its queue is registered. -/
  | registered
  /-- It is among the sessions of its hall. -/
  | enlisted
  /-- The default room has been asked for. -/
  | greeted
  deriving Repr, DecidableEq

/-- Whether the client has been put among the sessions of its hall. -/
def Arrival.isEnlisted : Arrival → Bool
  | enlisted | greeted => true
  | _ => false

/-- How far the end of a connection has been taken note of. -/
inductive Departure
  | unnoticed
  /-- Under way, but still among the sessions. -/
  | closing
  /-- No longer among the sessions. -/
  | delisted
  /-- The farewell has been pushed. -/
  | seenOff
  deriving Repr, DecidableEq

structure Client where
  hall : HallRef
  sessionId : Nat
  queue : Jobs.QueueRef
  /-- The room it is in, by its own account. -/
  room : Option RoomRef := none
  link : Link := .none
  arrival : Arrival := .unnoticed
  departure : Departure := .unnoticed
  /-- What its session has accepted for sending, in order. -/
  sent : List Outgoing := []
  deriving Repr, DecidableEq

/-- Whether the client knows its session and that is connected. -/
def Client.isConnected (c : Client) : Bool := c.arrival ≠ .unnoticed && c.link = .connected

/-- One chat server. -/
structure Hall where
  defaultRoom : String
  rooms : Table String RoomRef := {}
  sessions : Table Nat ClientRef := {}
  nextSessionId : Nat := 1
  /-- Whether connections are accepted. -/
  accepting : Bool := true
  /-- The client whose connection has been accepted and whose session has not started. -/
  inHand : Option ClientRef := none
  /-- The clients that a shutdown has still to disconnect, once it has looked. -/
  dismissing : Option (List ClientRef) := none
  deriving Repr, DecidableEq

structure House where
  halls : List Hall := []
  rooms : List Room := []
  clients : List Client := []
  /-- The gates that are open, each as often as it lets a job through. -/
  gates : List String := []
  /-- The time, in milliseconds since 1970. -/
  clock : Int64 := 0
  deriving Repr, DecidableEq

def House.openGate (s : House) (gate : String) : House := { s with gates := gate :: s.gates }

def House.passGate (s : House) (gate : String) : House := { s with gates := s.gates.erase gate }

/-- The halls together with the queues that work on them. -/
abbrev World := Jobs.Realm Job House

def roomQueueName (room : String) : String := s!"room:{room}"

def sessionQueueName (sessionId : Nat) : String := s!"session:{sessionId}"

namespace World

def empty : World := { state := {} }

def withPool (w : World) (pool : Jobs.Pool Job) : World := { w with pool }

def mapHouse (w : World) (f : House → House) : World := w.updateState f

def hall? (w : World) (h : HallRef) : Option Hall := w.state.halls[h]?

def room? (w : World) (r : RoomRef) : Option Room := w.state.rooms[r]?

def client? (w : World) (c : ClientRef) : Option Client := w.state.clients[c]?

def modifyHall (w : World) (h : HallRef) (f : Hall → Hall) : World :=
  w.mapHouse fun s => { s with halls := s.halls.modify h f }

def modifyRoom (w : World) (r : RoomRef) (f : Room → Room) : World :=
  w.mapHouse fun s => { s with rooms := s.rooms.modify r f }

def modifyClient (w : World) (c : ClientRef) (f : Client → Client) : World :=
  w.mapHouse fun s => { s with clients := s.clients.modify c f }

def pushToRoom (w : World) (r : RoomRef) (task : RoomTask) : World :=
  match w.room? r with
  | some room => w.push room.queue (.room r task)
  | none => w

def pushToSession (w : World) (c : ClientRef) (task : SessionTask) : World :=
  match w.client? c with
  | some client => w.push client.queue (.session c task)
  | none => w

/-- The room a client is in, by its own account, with its reference. -/
def currentRoom? (w : World) (c : ClientRef) : Option (RoomRef × Room) := do
  let client ← w.client? c
  let r ← client.room
  let room ← w.room? r
  some (r, room)

/-- A new hall without rooms. -/
def openHall (w : World) (defaultRoom : String) : World × HallRef :=
  (w.mapHouse fun s => { s with halls := s.halls ++ [{ defaultRoom }] }, w.state.halls.length)

def takeSessionId (w : World) (h : HallRef) : World × Nat :=
  match w.hall? h with
  | some hall => (w.modifyHall h fun hall => { hall with nextSessionId := hall.nextSessionId + 1 },
      hall.nextSessionId)
  | none => (w, 0)

/-- A new client of a hall, with a queue that is not registered. -/
def newClient (w : World) (h : HallRef) : World × ClientRef :=
  let (w, sessionId) := w.takeSessionId h
  let (pool, queue) := w.pool.create (sessionQueueName sessionId)
  let w := w.withPool pool
  (w.mapHouse fun s => { s with clients := s.clients ++ [{ hall := h, sessionId, queue }] },
    w.state.clients.length)

def shownClient (w : World) (c : ClientRef) : String :=
  let sessionId := ((w.client? c).map Client.sessionId).getD 0
  let room :=
    match w.currentRoom? c with
    | some (_, room) => s!"Some({quoted room.name})"
    | none => "None"
  s!"ClientSession \x7b session_id: {sessionId}, room: {room} \x7d"

end World

end ChatHall.Server
