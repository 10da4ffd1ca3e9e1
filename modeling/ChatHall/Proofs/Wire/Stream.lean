/-
# Streams of frames

A packet that keeps to the limits of a reader is found at the front of every
stream that starts with its frame, up to frames of the largest size. A stream of
such frames is therefore read as the packets that were written.
-/

import ChatHall.Proofs.Text.Utf8
import ChatHall.Proofs.Wire.Front

namespace ChatHall.Wire

open ChatHall.Text

def Packet.content : Packet → UInt16 × Bytes
  | .binary id payload => (id, payload)
  | .json text => (Frame.jsonId, Utf8.encode text)

/-- Whether a packet can be framed for a reader with these limits: the id is not taken for
JSON by mistake and not too large, and the length of the frame is not too large either and
can be written in its four bytes. -/
structure Packet.Within (limits : Limits) (p : Packet) : Prop where
  id_ne : ∀ id payload, p = .binary id payload → id ≠ Frame.jsonId
  id_le : p.content.1 ≤ limits.maxPacketId
  size_le : Frame.headerSize + p.content.2.length ≤ limits.maxFrameSize
  size_lt : Frame.headerSize + p.content.2.length < Bytes.capacity 4

namespace Frame

theorem ofPacket_eq_encode (p : Packet) : ofPacket p = encode p.content.1 p.content.2 := by
  cases p <;> rfl

/-- The content of a packet stands for that packet. -/
theorem packetOf_content {p : Packet} (h : ∀ id payload, p = .binary id payload → id ≠ jsonId) :
    packetOf p.content.1 p.content.2 = .ok p := by
  cases p with
  | binary id payload =>
      have other : (id == jsonId) = false := beq_eq_false_iff_ne.2 (h id payload rfl)
      simp [packetOf, Packet.content, other]
  | json text => simp [packetOf, Packet.content, Utf8.decode_encode]

/-- A frame within the limits is taken off the stream that it starts. -/
theorem front_ofPacket_append {limits : Limits} {p : Packet} (within : p.Within limits)
    (rest : Bytes) :
    ∃ h, front limits (ofPacket p ++ rest) = .packet p (ofPacket p).length rest h := by
  have total : Bytes.toNat (Bytes.ofNat 4 (headerSize + p.content.2.length)) =
      headerSize + p.content.2.length := by
    rw [Bytes.toNat_ofNat, Nat.mod_eq_of_lt within.size_lt]
  have id : UInt16.ofNat (Bytes.toNat (Bytes.ofNat 2 p.content.1.toNat)) = p.content.1 := by
    have fits : p.content.1.toNat < Bytes.capacity 2 := p.content.1.toNat_lt
    rw [Bytes.toNat_ofNat, Nat.mod_eq_of_lt fits, UInt16.ofNat_toNat]
  have good : headerFault? limits (headerSize + p.content.2.length) p.content.1 = none :=
    (headerFault?_eq_none_iff ..).2 ⟨Nat.le_add_right .., within.size_le, within.id_le⟩
  have whole := Bytes.splitExact?_append p.content.2 rest
  rw [ofPacket_eq_encode, length_encode, encode, List.append_assoc, List.append_assoc]
  simp only [Bytes.ofNat] at total id ⊢
  apply front_of_packetOf_ok limits
  · rw [total, id]
    exact good
  · rw [total, Nat.add_sub_cancel_left]
    exact whole
  · rw [id]
    exact packetOf_content within.id_ne

variable {ε : Type} {limits : Limits} {accept : List Packet → Except ε Unit}

/-- Frames within the limits are read as their packets as long as those are accepted, and
reading goes on behind them. -/
theorem readFrom_flatMap_ofPacket {ps : List Packet} (within : ∀ p ∈ ps, p.Within limits)
    (seen : List Packet) (done : Nat) (rest : Bytes)
    (accepted : ∀ k < ps.length, accept ((ps.take (k + 1)).reverse ++ seen) = .ok ()) :
    readFrom limits accept seen done (ps.flatMap ofPacket ++ rest) =
      readFrom limits accept (ps.reverse ++ seen) (done + (ps.flatMap ofPacket).length) rest := by
  induction ps generalizing seen done with
  | nil => rfl
  | cons p ps ih =>
      obtain ⟨h, hfront⟩ := front_ofPacket_append (within p (List.mem_cons_self ..))
        (ps.flatMap ofPacket ++ rest)
      have first : accept (p :: seen) = .ok () := accepted 0 (by simp)
      have later : ∀ k < ps.length, accept ((ps.take (k + 1)).reverse ++ p :: seen) = .ok () := by
        intro k hk
        have := accepted (k + 1) (by simpa using hk)
        simpa using this
      rw [List.flatMap_cons, List.append_assoc, readFrom, hfront]
      simp only [first]
      rw [ih (fun q hq => within q (List.mem_cons_of_mem p hq)) _ _ later]
      simp [Nat.add_assoc]

/-- A frame within the limits is read as its packet alone. The packet is judged, and if it is
accepted the frame is done with. -/
theorem read_ofPacket {p : Packet} (within : p.Within limits) :
    read limits accept (ofPacket p) =
      ⟨[p], ((accept [p]).mapError .refused).map fun () => (ofPacket p).length⟩ := by
  have whole : ∃ h, front limits (ofPacket p) = .packet p (ofPacket p).length [] h := by
    have front := front_ofPacket_append within []
    rwa [List.append_nil] at front
  obtain ⟨h, hfront⟩ := whole
  rw [read, readFrom, hfront]
  cases judged : accept [p] with
  | error e =>
      simp only [judged]
      rfl
  | ok done =>
      simp only [judged]
      rw [readFrom, Nat.zero_add]
      rfl

end Frame

end ChatHall.Wire
