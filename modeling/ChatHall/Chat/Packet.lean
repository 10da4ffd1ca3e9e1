/-
# Binary packets

The packets with a numeric id: what a client says, what everybody in a room is
told, and how the membership of a room changes. Their payloads are JSON objects.
-/

import ChatHall.Chat.Error
import ChatHall.Json.Printer
import ChatHall.Json.Record
import ChatHall.Text.Blank
import ChatHall.Wire.Frame

namespace ChatHall.Chat

open ChatHall.Text ChatHall.Json

/-- The kinds of binary packets. -/
inductive PacketKind
  /-- From a client: a message to its room. -/
  | utterance
  /-- To clients: a message of somebody in the room. -/
  | broadcast
  /-- To clients: who is in the room. -/
  | roomUpdate
  deriving Repr, DecidableEq

namespace PacketKind

def id : PacketKind → UInt16
  | utterance => 1
  | broadcast => 2
  | roomUpdate => 3

/-- The name under which the protocol knows the packet. -/
def name : PacketKind → String
  | utterance => "CChat"
  | broadcast => "SChat"
  | roomUpdate => "RoomUpdate"

def ofId (id : UInt16) : Except Error PacketKind :=
  if id = 1 then .ok utterance
  else if id = 2 then .ok broadcast
  else if id = 3 then .ok roomUpdate
  else .error (.unknownPacket id)

end PacketKind

/-- A message of a client to its room. -/
structure Utterance where
  message : String
  deriving Repr, DecidableEq

/-- A message as everybody in the room gets it. -/
structure Broadcast where
  playerId : UInt64
  message : String
  /-- Milliseconds since 1970. -/
  timestamp : Int64
  deriving Repr, DecidableEq

/-- What happened to a room. -/
inductive RoomEvent
  | entered
  | left
  /-- Nothing: somebody asked. -/
  | snapshot
  deriving Repr, DecidableEq

def RoomEvent.name : RoomEvent → String
  | entered => "entered"
  | left => "left"
  | snapshot => "snapshot"

/-- A change of a room's membership, with the number of members after it. -/
structure RoomUpdate where
  room : String
  event : RoomEvent
  playerId : Option UInt64
  memberCount : UInt64
  deriving Repr, DecidableEq

/-- The longest message, in characters. -/
def maxMessageLength : Nat := 200

/-- Refuses messages that are blank or too long. -/
def validateMessage (message : String) : Except Error Unit :=
  if allBlank message then .error (.invalidMessage "빈 메시지")
  else if maxMessageLength < message.length then
    .error (.invalidMessage s!"메시지가 너무 깁니다 ({message.length}자, 최대 {maxMessageLength}자)")
  else .ok ()

/-- What the payload of a packet with this id is refused with. -/
def payloadError (packetId : UInt16) (payload : Bytes) (f : Fault) : Error :=
  .invalidPayload packetId (f.message payload)

namespace Utterance

def json (u : Utterance) : String := Printer.object [("message", Printer.text u.message)]

def frame (u : Utterance) : Bytes :=
  Wire.Frame.encode PacketKind.utterance.id (Utf8.encode u.json)

structure Draft where
  message : Option String := none

def record : Record Draft Utterance where
  title := PacketKind.utterance.name
  fields := [
    { name := "message"
      present := fun d => d.message.isSome
      read := fun d s => (Reader.text s).map fun (m, rest) => ({ d with message := some m }, rest) }]
  blank := {}
  build d :=
    match d.message with
    | none => .error "message"
    | some message => .ok { message }

/-- Reads the payload of a packet with the given id. -/
def decode (packetId : UInt16) (payload : Bytes) : Except Error Utterance :=
  (record.decode payload).mapError (payloadError packetId payload)

end Utterance

namespace Broadcast

def json (b : Broadcast) : String :=
  Printer.object [
    ("player_id", Printer.natural b.playerId.toNat),
    ("message", Printer.text b.message),
    ("timestamp", Printer.integer b.timestamp.toInt)]

def frame (b : Broadcast) : Bytes :=
  Wire.Frame.encode PacketKind.broadcast.id (Utf8.encode b.json)

structure Draft where
  playerId : Option UInt64 := none
  message : Option String := none
  timestamp : Option Int64 := none

def record : Record Draft Broadcast where
  title := PacketKind.broadcast.name
  fields := [
    { name := "player_id"
      present := fun d => d.playerId.isSome
      read := fun d s =>
        (Reader.natural "u64" s).map fun (n, rest) => ({ d with playerId := some n }, rest) },
    { name := "message"
      present := fun d => d.message.isSome
      read := fun d s => (Reader.text s).map fun (m, rest) => ({ d with message := some m }, rest) },
    { name := "timestamp"
      present := fun d => d.timestamp.isSome
      read := fun d s =>
        (Reader.integer "i64" s).map fun (n, rest) => ({ d with timestamp := some n }, rest) }]
  blank := {}
  build d :=
    match d.playerId, d.message, d.timestamp with
    | none, _, _ => .error "player_id"
    | _, none, _ => .error "message"
    | _, _, none => .error "timestamp"
    | some playerId, some message, some timestamp => .ok { playerId, message, timestamp }

def decode (packetId : UInt16) (payload : Bytes) : Except Error Broadcast :=
  (record.decode payload).mapError (payloadError packetId payload)

end Broadcast

namespace RoomUpdate

def json (u : RoomUpdate) : String :=
  Printer.object [
    ("room_id", Printer.text u.room),
    ("event", Printer.text u.event.name),
    ("player_id", Printer.naturalOrNull (u.playerId.map UInt64.toNat)),
    ("member_count", Printer.natural u.memberCount.toNat)]

def frame (u : RoomUpdate) : Bytes :=
  Wire.Frame.encode PacketKind.roomUpdate.id (Utf8.encode u.json)

structure Draft where
  room : Option String := none
  event : Option RoomEvent := none
  playerId : Option (Option UInt64) := none
  memberCount : Option UInt64 := none

def events : List (String × RoomEvent) :=
  [RoomEvent.entered, .left, .snapshot].map fun e => (e.name, e)

def record : Record Draft RoomUpdate where
  title := PacketKind.roomUpdate.name
  fields := [
    { name := "room_id"
      present := fun d => d.room.isSome
      read := fun d s => (Reader.text s).map fun (r, rest) => ({ d with room := some r }, rest) },
    { name := "event"
      present := fun d => d.event.isSome
      read := fun d s =>
        (Reader.choice events s).map fun (e, rest) => ({ d with event := some e }, rest) },
    { name := "player_id"
      present := fun d => d.playerId.isSome
      read := fun d s =>
        (Reader.naturalOrNull "u64" s).map fun (n, rest) => ({ d with playerId := some n }, rest) },
    { name := "member_count"
      present := fun d => d.memberCount.isSome
      read := fun d s =>
        (Reader.natural "usize" s).map fun (n, rest) => ({ d with memberCount := some n }, rest) }]
  blank := {}
  build d :=
    match d.room, d.event, d.memberCount with
    | none, _, _ => .error "room_id"
    | _, none, _ => .error "event"
    | _, _, none => .error "member_count"
    | some room, some event, some memberCount =>
      .ok { room, event, playerId := d.playerId.getD none, memberCount }

def decode (packetId : UInt16) (payload : Bytes) : Except Error RoomUpdate :=
  (record.decode payload).mapError (payloadError packetId payload)

end RoomUpdate

end ChatHall.Chat
