/-
# What is sent is what arrives

Every payload is read as the value that it was printed from, whatever the value's texts
and numbers are: each entry of the printed object fills its own field, and what the
fields build is the value. A frame within the limits is read as the one packet it was
made from. So typed packets survive the whole way, under any of the ids.
-/

import ChatHall.Chat.Packet
import ChatHall.Chat.Response
import ChatHall.Proofs.Json.Object
import ChatHall.Proofs.Wire.Stream

namespace ChatHall

open ChatHall.Text

/-! ## Payloads -/

namespace Chat

open ChatHall.Json

/-- A value that is read without a fault is not touched by what becomes of faults. -/
theorem mapError_of_ok {ε ε' α : Type} {e : Except ε α} {a : α} (read : e = .ok a) (f : ε → ε') :
    e.mapError f = .ok a := by
  rw [read]
  rfl

theorem Utterance.decode_json (id : UInt16) (u : Utterance) :
    Utterance.decode id (Utf8.encode u.json) = .ok u := by
  have fills : record.Fills record.blank [("message", Printer.text u.message)] ⟨some u.message⟩ :=
    .entry rfl rfl ((reads_text u.message).map fun m => (⟨some m⟩ : Draft)) (.done _)
  exact mapError_of_ok (fills.decode rfl) _

theorem Broadcast.decode_json (id : UInt16) (b : Broadcast) :
    Broadcast.decode id (Utf8.encode b.json) = .ok b := by
  have fills : record.Fills record.blank
      [("player_id", Printer.natural b.playerId.toNat), ("message", Printer.text b.message),
        ("timestamp", Printer.integer b.timestamp.toInt)]
      ⟨some b.playerId, some b.message, some b.timestamp⟩ :=
    .entry rfl rfl ((reads_natural "u64" b.playerId).map fun n => (⟨some n, none, none⟩ : Draft)) <|
    .entry rfl rfl ((reads_text b.message).map fun m => (⟨some b.playerId, some m, none⟩ : Draft)) <|
    .entry rfl rfl ((reads_integer "i64" b.timestamp).map fun n =>
      (⟨some b.playerId, some b.message, some n⟩ : Draft)) (.done _)
  exact mapError_of_ok (fills.decode rfl) _

theorem RoomUpdate.lookup_events (e : RoomEvent) : events.lookup e.name = some e := by
  cases e <;> rfl

theorem RoomUpdate.decode_json (id : UInt16) (u : RoomUpdate) :
    RoomUpdate.decode id (Utf8.encode u.json) = .ok u := by
  have fills : record.Fills record.blank
      [("room_id", Printer.text u.room), ("event", Printer.text u.event.name),
        ("player_id", Printer.naturalOrNull (u.playerId.map UInt64.toNat)),
        ("member_count", Printer.natural u.memberCount.toNat)]
      ⟨some u.room, some u.event, some u.playerId, some u.memberCount⟩ :=
    .entry rfl rfl ((reads_text u.room).map fun r => (⟨some r, none, none, none⟩ : Draft)) <|
    .entry rfl rfl ((reads_choice (lookup_events u.event)).map fun e =>
      (⟨some u.room, some e, none, none⟩ : Draft)) <|
    .entry rfl rfl ((reads_naturalOrNull "u64" u.playerId).map fun n =>
      (⟨some u.room, some u.event, some n, none⟩ : Draft)) <|
    .entry rfl rfl ((reads_natural "usize" u.memberCount).map fun n =>
      (⟨some u.room, some u.event, some u.playerId, some n⟩ : Draft)) (.done _)
  exact mapError_of_ok (fills.decode rfl) _

theorem Response.decode_json (id : UInt16) (r : Response) :
    Response.decode id (Utf8.encode r.json) = .ok r := by
  have keeps (success : Bool) (room : String) :
      union.Keeps [("Success", Printer.boolean success), ("RoomId", Printer.text room)]
        [("Success", .scalar (.boolean success)), ("RoomId", .scalar (.text room))] :=
    .entry (by decide) (prints_boolean success) <| .entry (by decide) (prints_text room) .done
  cases r with
  | joined success room => exact mapError_of_ok ((keeps success room).decode rfl rfl) _
  | left success room => exact mapError_of_ok ((keeps success room).decode rfl rfl) _
  | error message =>
      have keeps : union.Keeps [("Message", Printer.text message)]
          [("Message", .scalar (.text message))] :=
        .entry (by decide) (prints_text message) .done
      exact mapError_of_ok (keeps.decode rfl rfl) _

theorem Command.decode_json (c : Command) : Command.decode c.json = .ok c := by
  have keeps (name : String) (other : name ≠ union.tag) (value : String) :
      union.Keeps [(name, Printer.text value)] [(name, .scalar (.text value))] :=
    .entry other (prints_text value) .done
  have read : union.decode (Utf8.encode c.json) = .ok c := by
    cases c with
    | joinRoom room => exact (keeps "RoomId" (by decide) room).decode rfl rfl
    | leaveRoom room => exact (keeps "RoomId" (by decide) room).decode rfl rfl
    | sendMessage message => exact (keeps "Message" (by decide) message).decode rfl rfl
  rw [Command.decode]
  exact mapError_of_ok read _

/-! ## Packets -/

open ChatHall.Wire (Packet Limits)

def PacketKind.packet (kind : PacketKind) (json : String) : Packet :=
  .binary kind.id (Utf8.encode json)

/-- Whether a reader with these limits hands over one packet for a frame, whoever judges the
packet, and is done with the whole frame if it is accepted. -/
def Delivers (limits : Limits) (frame : Bytes) (p : Packet) : Prop :=
  ∀ {ε : Type} (accept : List Packet → Except ε Unit),
    Wire.Frame.read limits accept frame =
      ⟨[p], ((accept [p]).mapError .refused).map fun () => frame.length⟩

/-- Whether values printed by `json` survive a reader with these limits under every id: one
packet with that id comes out, and its payload is read as the value. -/
def Survive {α : Type} (limits : Limits) (json : α → String)
    (decode : UInt16 → Bytes → Except Error α) : Prop :=
  ∀ (kind : PacketKind) (a : α), (kind.packet (json a)).Within limits →
    ∃ payload, Delivers limits (Wire.Frame.encode kind.id (Utf8.encode (json a)))
        (.binary kind.id payload) ∧ decode kind.id payload = .ok a

theorem survive_of_decode {α : Type} {json : α → String}
    {decode : UInt16 → Bytes → Except Error α}
    (decodes : ∀ id a, decode id (Utf8.encode (json a)) = .ok a) (limits : Limits) :
    Survive limits json decode := by
  intro kind a within
  exact ⟨Utf8.encode (json a), fun _ => Wire.Frame.read_ofPacket within, decodes kind.id a⟩

/-- What becomes of everything that is sent to a reader with these limits. -/
structure Faithful (limits : Limits) : Prop where
  utterance : Survive limits Utterance.json Utterance.decode
  broadcast : Survive limits Broadcast.json Broadcast.decode
  roomUpdate : Survive limits RoomUpdate.json RoomUpdate.decode
  response : ∀ r : Response, (Packet.json r.json).Within limits →
    ∃ text, Delivers limits r.frame (.json text) ∧
      ∀ id, Response.decode id (Utf8.encode text) = .ok r
  command : ∀ c : Command, Command.decode c.json = .ok c

/-- Whatever fits into a frame arrives as it was sent. -/
theorem faithful (limits : Limits) : Faithful limits where
  utterance := survive_of_decode Utterance.decode_json limits
  broadcast := survive_of_decode Broadcast.decode_json limits
  roomUpdate := survive_of_decode RoomUpdate.decode_json limits
  response r within :=
    ⟨r.json, fun _ => Wire.Frame.read_ofPacket within, fun id => Response.decode_json id r⟩
  command := Command.decode_json

/-- The frames that the server and its clients send are among those of the theorem. -/
example (u : Utterance) :
    u.frame = Wire.Frame.encode PacketKind.utterance.id (Utf8.encode u.json) := rfl

end Chat

end ChatHall
