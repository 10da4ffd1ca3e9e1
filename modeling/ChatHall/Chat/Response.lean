/-
# Responses

What a client is told in a JSON packet.
-/

import ChatHall.Chat.Command
import ChatHall.Wire.Frame

namespace ChatHall.Chat

open ChatHall.Text ChatHall.Json

inductive Response
  | joined (success : Bool) (room : String)
  | left (success : Bool) (room : String)
  | error (message : String)
  deriving Repr, DecidableEq

namespace Response

def name : Response → String
  | joined .. => "JoinRoomResponse"
  | left .. => "LeaveRoomResponse"
  | error _ => "Error"

def json (r : Response) : String :=
  let values :=
    match r with
    | joined success room | left success room =>
      [("Success", Printer.boolean success), ("RoomId", Printer.text room)]
    | error message => [("Message", Printer.text message)]
  Printer.object ((tagKey, Printer.text r.name) :: values)

def frame (r : Response) : Bytes := Wire.Frame.encodeText r.json

structure Draft where
  success : Option Bool := none
  text : Option String := none

def successSlot : Slot Draft where
  name := "Success"
  present d := d.success.isSome
  take d found := (found.boolean? "a boolean").map fun b => { d with success := some b }

def textSlot (name : String) : Slot Draft where
  name
  present d := d.text.isSome
  take d found := (found.text? "a string").map fun t => { d with text := some t }

def roomVariant (name : String) (make : Bool → String → Response) : Variant Draft Response where
  name
  slots := [successSlot, textSlot "RoomId"]
  build d :=
    match d.success, d.text with
    | none, _ => .error "Success"
    | _, none => .error "RoomId"
    | some success, some room => .ok (make success room)

def errorVariant : Variant Draft Response where
  name := "Error"
  slots := [textSlot "Message"]
  build d :=
    match d.text with
    | none => .error "Message"
    | some message => .ok (.error message)

def union : Union Draft Response where
  title := "ServerResponse"
  tag := tagKey
  blank := {}
  variants := [
    roomVariant "JoinRoomResponse" .joined,
    roomVariant "LeaveRoomResponse" .left,
    errorVariant]

/-- Reads a payload that was sent under the given id. -/
def decode (packetId : UInt16) (payload : Bytes) : Except Error Response :=
  (union.decode payload).mapError fun f => .invalidPayload packetId (f.message payload)

end Response

end ChatHall.Chat
