/-
# Frames that a client takes in

A client refuses frames beyond the default limits, and with them the connection. What
the server sends about a room stays within them if the name of the room leaves some
headroom, and what it answers to a command does if the text of the command does. The
messages of a room need no such care, since they are limited themselves.
-/

import ChatHall.Proofs.Chat.Echo
import ChatHall.Proofs.Chat.Size
import ChatHall.Proofs.Wire.Exact

namespace ChatHall.Chat

open ChatHall.Text ChatHall.Json

/-! ## Frames -/

namespace Response

/-- An answer about a room has at most seventy bytes beside the room. -/
theorem length_room_le (name : String) (named : weight name ≤ 17) (success : Bool) (room : String) :
    (Utf8.encode (Printer.object [(tagKey, Printer.text name), ("Success", Printer.boolean success),
      ("RoomId", Printer.text room)])).length ≤ weight room + 64 := by
  have keys : weight tagKey = 4 ∧ weight "Success" = 7 ∧ weight "RoomId" = 6 := by decide
  have told : (Printer.bytes (Printer.boolean success)).length ≤ 5 := by
    cases success <;> decide
  rw [length_object]
  simp only [List.map_cons, List.map_nil, List.sum_cons, List.sum_nil, length_field, length_text, keys]
  omega

theorem length_joined_le (success : Bool) (room : String) :
    (joined success room).frame.length ≤ weight room + 70 := by
  have payload := length_room_le "JoinRoomResponse" (by decide) success room
  rw [frame, Wire.Frame.encodeText, Wire.Frame.length_encode, Wire.Frame.headerSize, Nat.add_comm]
  exact Nat.add_le_add_right payload 6

theorem length_left_le (success : Bool) (room : String) :
    (left success room).frame.length ≤ weight room + 70 := by
  have payload := length_room_le "LeaveRoomResponse" (by decide) success room
  rw [frame, Wire.Frame.encodeText, Wire.Frame.length_encode, Wire.Frame.headerSize, Nat.add_comm]
  exact Nat.add_le_add_right payload 6

theorem length_error (message : String) : (error message).frame.length = weight message + 35 := by
  have keys : weight tagKey = 4 ∧ weight "Error" = 5 ∧ weight "Message" = 7 := by decide
  have printed : (error message).json =
      Printer.object [(tagKey, Printer.text "Error"), ("Message", Printer.text message)] := rfl
  rw [frame, Wire.Frame.encodeText, Wire.Frame.length_encode, Wire.Frame.headerSize, printed,
    length_object]
  simp only [List.map_cons, List.map_nil, List.sum_cons, List.sum_nil, length_field, length_text, keys]
  omega

end Response

theorem Command.length_leaveRoom (room : String) :
    (Wire.Frame.encodeText (leaveRoom room).json).length = weight room + 38 := by
  have keys : weight tagKey = 4 ∧ weight "LeaveRoom" = 9 ∧ weight "RoomId" = 6 := by decide
  have printed : (leaveRoom room).json =
      Printer.object [(tagKey, Printer.text "LeaveRoom"), ("RoomId", Printer.text room)] := rfl
  rw [Wire.Frame.encodeText, Wire.Frame.length_encode, Wire.Frame.headerSize, printed,
    length_object]
  simp only [List.map_cons, List.map_nil, List.sum_cons, List.sum_nil, length_field, length_text, keys]
  omega

/-- An update has at most a hundred and ten bytes beside the room. -/
theorem RoomUpdate.length_frame_le (u : RoomUpdate) : u.frame.length ≤ weight u.room + 110 := by
  have keys : weight "room_id" = 7 ∧ weight "event" = 5 ∧ weight "player_id" = 9 ∧
      weight "member_count" = 12 := by decide
  have event : weight u.event.name ≤ 8 := by cases u.event <;> decide
  have natural (n : UInt64) : (Printer.bytes (Printer.natural n.toNat)).length ≤ 20 :=
    length_natural_le (by decide) (Nat.lt_trans n.toNat_lt (by decide))
  have player :
      (Printer.bytes (Printer.naturalOrNull (u.playerId.map UInt64.toNat))).length ≤ 20 := by
    cases u.playerId with
    | none => decide
    | some n => exact natural n
  have members := natural u.memberCount
  rw [frame, Wire.Frame.length_encode, Wire.Frame.headerSize, json, length_object]
  simp only [List.map_cons, List.map_nil, List.sum_cons, List.sum_nil, length_field, length_text, keys]
  omega

/-! ## Within the limits -/

/-- Whether a frame is within the default limits, and a reader with these limits takes the whole of
it in as one packet. -/
structure Accepted (frame : Bytes) (p : Wire.Packet) : Prop where
  length_le : frame.length ≤ Net.Settings.maxFrameSize {}
  delivers : Delivers (Net.Settings.limits {}) frame p

theorem accepted_json {json : String}
    (short : (Wire.Frame.encodeText json).length ≤ Net.Settings.maxFrameSize {}) :
    Accepted (Wire.Frame.encodeText json) (.json json) := by
  have within : (Wire.Packet.json json).Within (Net.Settings.limits {}) := by
    rw [Wire.Frame.encodeText, Wire.Frame.length_encode] at short
    exact {
      id_ne := by simp
      id_le := show Wire.Frame.jsonId ≤ 1000 by decide
      size_le := short
      size_lt := Nat.lt_of_le_of_lt short (by decide) }
  exact ⟨short, fun _ => Wire.Frame.read_ofPacket within⟩

theorem accepted_packet (kind : PacketKind) {json : String}
    (short : (Wire.Frame.encode kind.id (Utf8.encode json)).length ≤ Net.Settings.maxFrameSize {}) :
    Accepted (Wire.Frame.encode kind.id (Utf8.encode json)) (kind.packet json) := by
  have within : (kind.packet json).Within (Net.Settings.limits {}) := by
    rw [Wire.Frame.length_encode] at short
    exact {
      id_ne := fun id payload same => by
        obtain ⟨rfl, -⟩ := Wire.Packet.binary.inj same
        cases kind <;> decide
      id_le := show kind.id ≤ 1000 by cases kind <;> decide
      size_le := short
      size_lt := Nat.lt_of_le_of_lt short (by decide) }
  exact ⟨short, fun _ => Wire.Frame.read_ofPacket within⟩

/-- Whether a reader with the default limits refuses a frame for its length. -/
def Refused (frame : Bytes) : Prop :=
  ∀ (ε : Type) (accept : List Wire.Packet → Except ε Unit),
    Wire.Frame.read (Net.Settings.limits {}) accept frame =
      ⟨[], .error (.fault (.frameTooLong frame.length (Net.Settings.maxFrameSize {})))⟩

/-- A longer frame is refused, as long as its header can tell its length. -/
theorem refused_of_long {id : UInt16} {payload : Bytes}
    (long : Net.Settings.maxFrameSize {} < (Wire.Frame.encode id payload).length)
    (counted : (Wire.Frame.encode id payload).length < Bytes.capacity 4) :
    Refused (Wire.Frame.encode id payload) := by
  intro ε accept
  have whole := Wire.Frame.encode_append id payload []
  rw [List.append_nil, List.append_nil] at whole
  rw [Wire.Frame.length_encode] at long counted ⊢
  have faulty : Wire.Frame.Faulty (Net.Settings.limits {})
      (Wire.Frame.headed (Wire.Frame.headerSize + payload.length) id payload) _ :=
    .tooLong counted (Nat.le_add_right ..) long
  rw [← whole] at faulty
  rw [Wire.Frame.read, Wire.Frame.readFrom, Wire.Frame.front_of_faulty faulty]
  rfl

/-- How many bytes of a frame are kept for what an answer does not repeat. -/
def headroom : Nat := 160

/-- Whether a room has a name that leaves the headroom to every frame that tells it. -/
def IsShort (room : String) : Prop :=
  (Printer.bytes (Printer.text room)).length + headroom ≤ Net.Settings.maxFrameSize {}

instance (room : String) : Decidable (IsShort room) := inferInstanceAs (Decidable (_ ≤ _))

/-- Whether what may be repeated of a command leaves the headroom to every answer. -/
def Command.IsModest (text : String) : Prop :=
  Command.echo text + headroom ≤ Net.Settings.maxFrameSize {}

instance (text : String) : Decidable (Command.IsModest text) := inferInstanceAs (Decidable (_ ≤ _))

section Frames

variable {room text message : String}

theorem weight_le_of_isShort (short : IsShort room) : weight room ≤ 8030 := by
  have size : Net.Settings.maxFrameSize {} = 8192 := rfl
  rw [IsShort, length_text, size, headroom] at short
  omega

theorem accepted_joined (short : IsShort room) (success : Bool) :
    Accepted (Response.joined success room).frame (.json (Response.joined success room).json) := by
  have length := Response.length_joined_le success room
  have weighs := weight_le_of_isShort short
  exact accepted_json (Nat.le_trans length (show weight room + 70 ≤ 8192 by omega))

theorem accepted_left (short : IsShort room) (success : Bool) :
    Accepted (Response.left success room).frame (.json (Response.left success room).json) := by
  have length := Response.length_left_le success room
  have weighs := weight_le_of_isShort short
  exact accepted_json (Nat.le_trans length (show weight room + 70 ≤ 8192 by omega))

theorem accepted_error (brief : weight message ≤ 8157) :
    Accepted (Response.error message).frame (.json (Response.error message).json) := by
  have length := Response.length_error message
  exact accepted_json (Nat.le_trans (Nat.le_of_eq length) (show weight message + 35 ≤ 8192 by omega))

theorem accepted_update {u : RoomUpdate} (short : IsShort u.room) :
    Accepted u.frame (PacketKind.roomUpdate.packet u.json) := by
  have length := u.length_frame_le
  have weighs := weight_le_of_isShort short
  exact accepted_packet _ (Nat.le_trans length (show weight u.room + 110 ≤ 8192 by omega))

theorem accepted_broadcast {b : Broadcast} (valid : validateMessage b.message = .ok ()) :
    Accepted b.frame (PacketKind.broadcast.packet b.json) := by
  have length := b.length_frame_le
  have short : b.message.length ≤ 200 := length_le_of_validateMessage valid
  exact accepted_packet _ (Nat.le_trans length (show 6 * b.message.length + 86 ≤ 8192 by omega))

/-! ## Refusals -/

theorem weight_roomNotFound (room : String) :
    weight (Error.roomNotFound room).message = weight room + 32 := by
  have shown : (Error.roomNotFound room).message = "방을 찾을 수 없습니다: " ++ room := rfl
  have front : weight "방을 찾을 수 없습니다: " = 32 := by decide
  rw [shown, weight_append, front, Nat.add_comm]

theorem accepted_roomNotFound (short : IsShort room) :
    Accepted (Response.error (Error.roomNotFound room).message).frame
      (.json (Response.error (Error.roomNotFound room).message).json) := by
  have weighs := weight_le_of_isShort short
  apply accepted_error
  rw [weight_roomNotFound]
  omega

theorem length_roomNotFound (room : String) :
    (Response.error (Error.roomNotFound room).message).frame.length = weight room + 67 := by
  rw [Response.length_error, weight_roomNotFound]

/-- The answer that there is no room of a long name does not fit into a frame. -/
theorem refused_roomNotFound (long : 8125 < weight room)
    (counted : weight room + 67 < Bytes.capacity 4) :
    Refused (Response.error (Error.roomNotFound room).message).frame := by
  have length := length_roomNotFound room
  rw [Response.frame, Wire.Frame.encodeText] at length ⊢
  exact refused_of_long (length.symm ▸ show 8192 < weight room + 67 by omega)
    (length.symm ▸ counted)

theorem accepted_notInRoom {sessionId : Nat} (small : sessionId < UInt64.size) :
    Accepted (Response.error (Error.notInRoom sessionId).message).frame
      (.json (Response.error (Error.notInRoom sessionId).message).json) := by
  have shown : (Error.notInRoom sessionId).message =
      "세션 " ++ toString sessionId ++ "은(는) 방에 입장해 있지 않습니다" := rfl
  have front : weight "세션 " = 7 := by decide
  have behind : weight "은(는) 방에 입장해 있지 않습니다" ≤ 60 := by decide
  have digits := weight_toString_le 20 (by decide)
    (Nat.lt_trans small (show UInt64.size < 10 ^ 20 by decide))
  apply accepted_error
  rw [shown, weight_append, weight_append, front]
  omega

theorem accepted_invalidMessage {e : Error} (short : IsShort message)
    (invalid : validateMessage message = .error e) :
    Accepted (Response.error e.message).frame (.json (Response.error e.message).json) := by
  apply accepted_error
  rw [validateMessage] at invalid
  split_ifs at invalid
  · obtain rfl := Except.error.inj invalid
    have blank : weight (Error.message (.invalidMessage "빈 메시지")) ≤ 40 := by decide
    omega
  · obtain rfl := Except.error.inj invalid
    have shown : Error.message (.invalidMessage
        s!"메시지가 너무 깁니다 ({message.length}자, 최대 {maxMessageLength}자)") =
      "잘못된 메시지: " ++ ("메시지가 너무 깁니다 (" ++ toString message.length ++
        "자, 최대 " ++ toString maxMessageLength ++ "자)") := rfl
    have front : weight "잘못된 메시지: " ≤ 30 ∧ weight "메시지가 너무 깁니다 (" ≤ 40 := by decide
    have behind : weight "자, 최대 " ≤ 20 ∧ weight (toString maxMessageLength) ≤ 3 ∧
        weight "자)" ≤ 10 := by decide
    have weighs := weight_le_of_isShort short
    have long := length_le_weight message
    have digits := weight_toString_le 4 (by decide) (show message.length < 10 ^ 4 by omega)
    rw [shown]
    simp only [weight_append]
    omega

/-- What a modest command is about has a short name. -/
theorem isShort_of_decode {c : Command} (modest : Command.IsModest text)
    (decoded : Command.decode text = .ok c) : IsShort c.subject := by
  have size : Net.Settings.maxFrameSize {} = 8192 := rfl
  have within := Command.length_le_echo text
  rw [Command.IsModest, size, headroom] at modest
  have subject := Command.comes_decode text (by omega)
  rw [decoded, Comes] at subject
  rw [IsShort, length_text, size, headroom]
  omega

theorem accepted_of_decode {e : Error} (modest : Command.IsModest text)
    (undecoded : Command.decode text = .error e) :
    Accepted (Response.error e.message).frame (.json (Response.error e.message).json) := by
  have size : Net.Settings.maxFrameSize {} = 8192 := rfl
  have within := Command.length_le_echo text
  rw [Command.IsModest, size, headroom] at modest
  have complaint := Command.comes_decode text (by omega)
  rw [undecoded, Comes] at complaint
  apply accepted_error
  omega

end Frames

end ChatHall.Chat
