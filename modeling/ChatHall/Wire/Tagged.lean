/-
# Tagged packets

The format without lengths: a whole buffer is one message. It is a JSON text if
it starts with an opening brace, and an id in two bytes with a payload otherwise.
-/

import ChatHall.Wire.Packet

namespace ChatHall.Wire.Tagged

open ChatHall.Text

def openBrace : UInt8 := 0x7B

def encode (id : UInt16) (payload : Bytes) : Bytes := Bytes.ofNat 2 id.toNat ++ payload

/-- The message that fills a buffer, or nothing if the buffer is too short for one. -/
def message (maxPacketId : UInt16) : Bytes → Except Fault (Option Packet)
  | [] => .ok none
  | b :: s =>
    if b == openBrace then
      match Utf8.decode (b :: s) with
      | .ok text => .ok (some (.json text))
      | .error flaw => .error (.notText flaw)
    else
      match s with
      | [] => .ok none
      | b₁ :: payload =>
        let id := UInt16.ofNat (Bytes.toNat [b, b₁])
        if maxPacketId < id then .error (.strangeId id) else .ok (some (.binary id payload))

variable {ε : Type}

/-- Hands over the message that fills a buffer and counts its bytes. -/
def read (maxPacketId : UInt16) (accept : List Packet → Except ε Unit) (s : Bytes) : Intake ε :=
  match message maxPacketId s with
  | .error f => ⟨[], .error (.fault f)⟩
  | .ok none => ⟨[], .ok 0⟩
  | .ok (some p) =>
    match accept [p] with
    | .error e => ⟨[p], .error (.refused e)⟩
    | .ok () => ⟨[p], .ok s.length⟩

end ChatHall.Wire.Tagged
