/-
# A message that may be said fits into a frame

Messages are limited in characters, and frames in bytes. Between the two stand the
escapes of the printed message and the digits of the numbers beside it. The limits are
such that whatever may be said arrives with the default settings, with room to spare.
-/

import ChatHall.Net.Settings
import ChatHall.Proofs.Chat.Survival
import ChatHall.Proofs.Json.Size

namespace ChatHall.Chat

open ChatHall.Text ChatHall.Json

namespace Broadcast

/-- Beside the message there are at most eighty bytes: keys, numbers, quotes and punctuation. -/
theorem length_json_le (b : Broadcast) :
    (Utf8.encode b.json).length ≤ 6 * b.message.length + 80 := by
  have playerId : (Printer.bytes (Printer.natural b.playerId.toNat)).length ≤ 20 :=
    length_natural_le (by decide) (Nat.lt_trans b.playerId.toNat_lt (by decide))
  have message := length_text_le b.message
  have timestamp : (Printer.bytes (Printer.integer b.timestamp.toInt)).length ≤ 20 := by
    have least := b.timestamp.le_toInt
    have greatest := b.timestamp.toInt_lt
    exact length_integer_le (by decide) (show _ < 10 ^ 19 by omega)
  have keys : (Printer.bytes (Printer.text "player_id")).length = 11 ∧
      (Printer.bytes (Printer.text "message")).length = 9 ∧
      (Printer.bytes (Printer.text "timestamp")).length = 11 := by decide
  obtain ⟨first, second, third⟩ := keys
  rw [json, length_object]
  simp only [List.map_cons, List.map_nil, List.sum_cons, List.sum_nil, length_field, first, second,
    third]
  omega

theorem length_frame_le (b : Broadcast) : b.frame.length ≤ 6 * b.message.length + 86 := by
  have payload := b.length_json_le
  rw [frame, Wire.Frame.length_encode, Wire.Frame.headerSize]
  omega

end Broadcast

/-- A message that is not refused is not too long. -/
theorem length_le_of_validateMessage {message : String} (valid : validateMessage message = .ok ()) :
    message.length ≤ maxMessageLength := by
  rw [validateMessage] at valid
  split_ifs at valid with blank long
  exact Nat.not_lt.1 long

/-- Whatever message may be said, whoever says it and whenever: its frame is within the default
limits, and a reader with these limits takes the whole of it in as the packet that it is. -/
theorem fits_of_validateMessage (playerId : UInt64) (message : String) (timestamp : Int64)
    (valid : validateMessage message = .ok ()) :
    let b : Broadcast := { playerId, message, timestamp }
    let defaults : Net.Settings := {}
    b.frame.length ≤ defaults.maxFrameSize ∧
      Delivers defaults.limits b.frame (PacketKind.broadcast.packet b.json) := by
  intro b defaults
  have short : b.message.length ≤ 200 := length_le_of_validateMessage valid
  have whole : b.frame.length ≤ 1286 := Nat.le_trans b.length_frame_le (by omega)
  have within : (PacketKind.broadcast.packet b.json).Within defaults.limits := by
    rw [Broadcast.frame, Wire.Frame.length_encode] at whole
    exact {
      id_ne := fun id payload same => by
        obtain ⟨rfl, -⟩ := Wire.Packet.binary.inj same
        decide
      id_le := show PacketKind.broadcast.id ≤ 1000 by decide
      size_le := Nat.le_trans whole (by decide)
      size_lt := Nat.lt_of_le_of_lt whole (by decide) }
  exact ⟨Nat.le_trans whole (by decide), fun _ => Wire.Frame.read_ofPacket within⟩

/-- Two hundred characters that are written as numbers, said by the last player at a time long
before the first. -/
def longestBroadcast : Broadcast where
  playerId := -1
  message := String.ofList (List.replicate maxMessageLength '\x01')
  timestamp := Int64.minValue

theorem fits_of_validateMessage_longestBroadcast :
    validateMessage longestBroadcast.message = .ok () ∧
      longestBroadcast.frame.length ≤ Net.Settings.maxFrameSize {} ∧
      Delivers (Net.Settings.limits {}) longestBroadcast.frame
        (PacketKind.broadcast.packet longestBroadcast.json) := by
  have valid : validateMessage longestBroadcast.message = .ok () := by decide +kernel
  exact ⟨valid, fits_of_validateMessage _ _ _ valid⟩

end ChatHall.Chat
