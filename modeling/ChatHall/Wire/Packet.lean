/-
# Packets

What travels over a connection once the framing is taken off: a payload with a
numeric id, or a JSON text. Beside it stand the limits that incoming packets are
checked against and the ways in which a byte stream can fail to hold packets.
-/

import ChatHall.Text.Utf8

namespace ChatHall.Wire

open ChatHall.Text

inductive Packet
  | binary (id : UInt16) (payload : Bytes)
  | json (text : String)
  deriving Repr, DecidableEq

/-- The largest id and the largest frame that are taken in. -/
structure Limits where
  maxPacketId : UInt16
  maxFrameSize : Nat
  deriving Repr, DecidableEq

/-- Why a byte stream cannot be read as packets. -/
inductive Fault
  /-- A frame claims fewer bytes than its own header has. -/
  | frameTooShort (total : Nat)
  /-- A frame claims more bytes than a frame may have. -/
  | frameTooLong (total limit : Nat)
  /-- A packet id is beyond the largest one. -/
  | strangeId (id : UInt16)
  /-- The bytes of a JSON packet are no text. -/
  | notText (flaw : Utf8.Flaw)
  deriving Repr, DecidableEq

def Fault.message : Fault → String
  | frameTooShort total => s!"프레임 길이가 헤더보다 작습니다: {total}"
  | frameTooLong total limit => s!"프레임 길이 초과: {total} > {limit}"
  | strangeId id => s!"비정상적인 PacketID: {id}"
  | notText flaw => s!"JSON 패킷 UTF-8 디코딩 실패: {flaw.message}"

/-- Why taking in packets stopped early: the bytes, or the receiver of the packets. -/
inductive Halt (ε : Type)
  | fault (f : Fault)
  | refused (e : ε)
  deriving Repr

/-- What came of reading a buffer: the packets handed over, in order and with a
refused one included, and the number of bytes that are done with. -/
structure Intake (ε : Type) where
  packets : List Packet
  outcome : Except (Halt ε) Nat

end ChatHall.Wire
