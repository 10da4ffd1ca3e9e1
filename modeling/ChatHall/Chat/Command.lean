/-
# Commands

What a client asks for in a JSON packet.
-/

import ChatHall.Chat.Error
import ChatHall.Json.Printer
import ChatHall.Json.Union
import ChatHall.Text.Utf8

namespace ChatHall.Chat

open ChatHall.Text ChatHall.Json

/-- A request of a client. -/
inductive Command
  | joinRoom (room : String)
  | leaveRoom (room : String)
  | sendMessage (message : String)
  deriving Repr, DecidableEq

/-- The key that tells the variants of commands and responses apart. -/
def tagKey : String := "Type"

namespace Command

/-- The name under which the protocol knows the command. -/
def name : Command → String
  | joinRoom _ => "JoinRoom"
  | leaveRoom _ => "LeaveRoom"
  | sendMessage _ => "SendMessage"

def json (c : Command) : String :=
  let value :=
    match c with
    | joinRoom room | leaveRoom room => ("RoomId", Printer.text room)
    | sendMessage message => ("Message", Printer.text message)
  Printer.object [(tagKey, Printer.text c.name), value]

structure Draft where
  value : Option String := none

def slot (name : String) : Slot Draft where
  name
  present d := d.value.isSome
  take _ found := (found.text? "a string").map fun v => { value := some v }

def variant (name valueName : String) (make : String → Command) : Variant Draft Command where
  name
  slots := [slot valueName]
  build d :=
    match d.value with
    | none => .error valueName
    | some v => .ok (make v)

def union : Union Draft Command where
  title := "ClientCommand"
  tag := tagKey
  blank := {}
  variants := [
    variant "JoinRoom" "RoomId" .joinRoom,
    variant "LeaveRoom" "RoomId" .leaveRoom,
    variant "SendMessage" "Message" .sendMessage]

/-- Reads the text of a JSON packet. -/
def decode (text : String) : Except Error Command :=
  let input := Utf8.encode text
  (union.decode input).mapError fun f => .badCommand (f.message input)

end Command

end ChatHall.Chat
