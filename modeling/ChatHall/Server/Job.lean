/-
# The server's jobs

What runs on the queues of rooms and of sessions. A job of a session takes
several stages, between which jobs of other queues may run; the later stages are
jobs that no one pushes, each saying what is left to do.
-/

import ChatHall.Chat.Response
import ChatHall.Jobs.Realm

namespace ChatHall.Server

/-- A server's place among those that share a pool. -/
abbrev HallRef := Nat

/-- A room's place among all rooms ever made. -/
abbrev RoomRef := Nat

/-- A client's place among all clients ever made. -/
abbrev ClientRef := Nat

/-- What runs on the queue of a room. -/
inductive RoomTask
  | enter (client : ClientRef)
  | leave (playerId : Nat)
  | say (playerId : Nat) (message : String)
  /-- Tells the members how many there are. -/
  | announce
  /-- Gives the room up if nobody is in it or about to enter. -/
  | tidy
  deriving Repr, DecidableEq

/-- What a session does once its client has left a room. -/
inductive Next
  /-- Enters a room; `asked` tells whether the client waits for an answer. -/
  | enter (room : String) (asked : Bool)
  | answer (response : Chat.Response)
  /-- Gives the queue of the session up. -/
  | retire
  deriving Repr, DecidableEq

/-- What runs on the queue of a session. -/
inductive SessionTask
  /-- Joins the default room. -/
  | welcome
  | packet (id : UInt16) (payload : Bytes)
  | command (text : String)
  /-- Leaves the current room and gives the queue up. -/
  | farewell
  /-- About to leave the current room. -/
  | leaving (next : Next)
  /-- Has left a room that may have to be given up. -/
  | tidying (room : RoomRef) (next : Next)
  /-- About to go on. -/
  | going (next : Next)
  /-- Has entered a room that is not yet the current one. -/
  | arriving (room : RoomRef) (name : String) (asked : Bool)
  deriving Repr, DecidableEq

inductive Job
  | room (r : RoomRef) (task : RoomTask)
  | session (c : ClientRef) (task : SessionTask)
  /-- Holds the queue until a gate opens. -/
  | hold (gate : String)
  deriving Repr, DecidableEq

def Job.cost : Job → Nat
  | room .. | hold _ => 1
  | session .. => 40

end ChatHall.Server
