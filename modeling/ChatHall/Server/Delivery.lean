/-
# Sending to clients

A client can be sent to while its session is connected. What the session accepts
is kept in order; a broadcast goes to every member of a room, whether or not
the others can be reached.
-/

import ChatHall.Server.House

namespace ChatHall.Server

/-- Why a client cannot be sent to. -/
inductive Unreachable
  /-- It has no session. -/
  | noSession (e : Chat.Error)
  /-- Its session has ended. -/
  | ended (e : Net.Error)
  deriving Repr, DecidableEq

def Unreachable.message : Unreachable → String
  | noSession e => e.message
  | ended e => e.message

namespace World

def unreachable? (client : Client) : Option Unreachable :=
  if client.arrival = .unnoticed then some (.noSession (.sessionClosed client.sessionId))
  else
    match client.link with
    | .none => some (.noSession (.sessionClosed client.sessionId))
    | .closed => some (.ended (.disconnected client.sessionId))
    | .connected => none

def send (w : World) (c : ClientRef) (o : Outgoing) : Except Unreachable World :=
  match w.client? c with
  | none => .ok w
  | some client =>
    match unreachable? client with
    | some e => .error e
    | none => .ok (w.modifyClient c fun client => { client with sent := client.sent ++ [o] })

/-- Hands something to the session of a client if it can be reached. -/
def trySend (w : World) (c : ClientRef) (o : Outgoing) : World :=
  match w.send c o with
  | .ok w => w
  | .error _ => w

def broadcast (w : World) (r : RoomRef) (o : Outgoing) : World :=
  match w.room? r with
  | some room => room.members.values.foldl (fun w c => w.trySend c o) w
  | none => w

/-- Tells the members of a room what happened to it. -/
def sendUpdate (w : World) (r : RoomRef) (event : Chat.RoomEvent) (playerId : Option Nat) : World :=
  match w.room? r with
  | some room =>
    w.broadcast r (.update {
      room := room.name
      event
      playerId := playerId.map UInt64.ofNat
      memberCount := UInt64.ofNat room.memberCount })
  | none => w

end World

end ChatHall.Server
