/-
# Framed packets

A frame is its own total length in four bytes, the packet id in two, and the
payload. Id 0 is kept for JSON texts. A header is judged as soon as it is there,
before the body has come, so that a corrupt length cannot stall the stream.
-/

import ChatHall.Wire.Packet

namespace ChatHall.Wire.Frame

open ChatHall.Text

/-- The bytes in front of the payload. -/
def headerSize : Nat := 6

def jsonId : UInt16 := 0

def encode (id : UInt16) (payload : Bytes) : Bytes :=
  Bytes.ofNat 4 (headerSize + payload.length) ++ (Bytes.ofNat 2 id.toNat ++ payload)

def encodeText (text : String) : Bytes := encode jsonId (Utf8.encode text)

def ofPacket : Packet → Bytes
  | .binary id payload => encode id payload
  | .json text => encodeText text

theorem length_encode (id : UInt16) (payload : Bytes) :
    (encode id payload).length = headerSize + payload.length := by
  simp only [encode, List.length_append, Bytes.length_ofNat, headerSize]
  omega

/-- The packet that a payload stands for. -/
def packetOf (id : UInt16) (payload : Bytes) : Except Fault Packet :=
  if id == jsonId then
    match Utf8.decode payload with
    | .ok text => .ok (.json text)
    | .error flaw => .error (.notText flaw)
  else .ok (.binary id payload)

/-- What stands at the front of a byte string: nothing complete yet, a fault, or
a packet in a frame of `size` bytes. -/
inductive Front (s : Bytes)
  | incomplete
  | invalid (f : Fault)
  | packet (p : Packet) (size : Nat) (rest : Bytes)
      (length_eq : headerSize ≤ size ∧ size + rest.length = s.length)

/-- The frame at the front of a byte string. -/
def front (limits : Limits) (s : Bytes) : Front s :=
  match s with
  | l₀ :: l₁ :: l₂ :: l₃ :: i₀ :: i₁ :: body =>
    let total := Bytes.toNat [l₀, l₁, l₂, l₃]
    let id := UInt16.ofNat (Bytes.toNat [i₀, i₁])
    if total < headerSize then .invalid (.frameTooShort total)
    else if limits.maxFrameSize < total then .invalid (.frameTooLong total limits.maxFrameSize)
    else if limits.maxPacketId < id then .invalid (.strangeId id)
    else
      match h : Bytes.splitExact? (total - headerSize) body with
      | none => .incomplete
      | some (payload, rest) =>
        match packetOf id payload with
        | .error f => .invalid f
        | .ok p =>
          .packet p (headerSize + payload.length) rest (by
            obtain ⟨hb, -⟩ := Bytes.eq_append_of_splitExact? h
            simp only [hb, List.length_cons, List.length_append, headerSize]
            omega)
  | _ => .incomplete

variable {ε : Type}

/-- Reads on after the packets `seen`, latest first, which took `done` bytes.
`accept` judges a packet by all packets up to it, itself first. -/
def readFrom (limits : Limits) (accept : List Packet → Except ε Unit)
    (seen : List Packet) (done : Nat) (s : Bytes) : Intake ε :=
  match front limits s with
  | .incomplete => ⟨seen.reverse, .ok done⟩
  | .invalid f => ⟨seen.reverse, .error (.fault f)⟩
  | .packet p size rest _ =>
    match accept (p :: seen) with
    | .error e => ⟨(p :: seen).reverse, .error (.refused e)⟩
    | .ok () => readFrom limits accept (p :: seen) (done + size) rest
termination_by s.length
decreasing_by simp only [headerSize] at *; omega

/-- Hands over the complete frames at the front of a buffer and counts their bytes. -/
def read (limits : Limits) (accept : List Packet → Except ε Unit) (s : Bytes) : Intake ε :=
  readFrom limits accept [] 0 s

end ChatHall.Wire.Frame
