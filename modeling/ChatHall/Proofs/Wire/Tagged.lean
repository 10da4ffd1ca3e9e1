/-
# Telling tagged packets apart

A tagged message does not say what it is: a buffer that starts with an opening
brace is taken for a JSON text, and the first byte of a binary message is the
low byte of its id. So a binary message comes back exactly if its id is allowed
and its low byte is no brace. The ids with that low byte, one in 256, are sent
like all others and are taken for texts, or refused as bad ones.
-/

import ChatHall.Proofs.Text.Utf8
import ChatHall.Wire.Tagged

namespace ChatHall

/-- No character of more than one byte starts like one of a single byte. -/
theorem Text.Utf8.head?_encodeChar_eq_iff (c : Char) {n : Nat} (single : n < 0x80) :
    (encodeChar c).head? = some (UInt8.ofNat n) ↔ c.toNat = n := by
  have small : c.toNat < 0x110000 := by
    rcases c.valid with h | ⟨-, h⟩
    · exact Nat.lt_trans h (by decide)
    · exact h
  have number := toNat_byte (show n < 256 by omega)
  simp only [encodeChar]
  split_ifs with one two three <;>
    rw [List.head?_cons, Option.some.injEq, ← UInt8.toNat_inj, toNat_byte (by omega), number]
  all_goals omega

namespace Wire.Tagged

open ChatHall.Text

/-- The bytes of a text start with a brace exactly if the text does. -/
theorem head?_encode_eq_openBrace_iff (text : String) :
    (Utf8.encode text).head? = some openBrace ↔ text.toList.head? = some '{' := by
  rw [Utf8.encode]
  cases text.toList with
  | nil => simp
  | cons c cs =>
      have first := Utf8.head?_encodeChar_eq_iff c (show 0x7B < 0x80 by decide)
      obtain ⟨b, s, hbytes⟩ : ∃ b s, Utf8.encodeChar c = b :: s := by
        obtain ⟨b, s, _, _, hbytes, -⟩ := Utf8.front_encodeChar c []
        exact ⟨b, s, by rw [← hbytes, List.append_nil]⟩
      rw [hbytes, List.head?_cons] at first
      rw [List.flatMap_cons, hbytes, List.cons_append, List.head?_cons, List.head?_cons,
        Option.some.injEq c]
      exact first.trans ⟨fun h => Char.toNat_inj.1 h, fun h => h ▸ rfl⟩

variable {maxPacketId : UInt16}

theorem exists_encode_eq (id : UInt16) (payload : Bytes) :
    ∃ b, encode id payload = UInt8.ofNat id.toNat :: b :: payload ∧
      UInt16.ofNat (Bytes.toNat [UInt8.ofNat id.toNat, b]) = id := by
  have fits : id.toNat < Bytes.capacity 2 := id.toNat_lt
  have number : UInt16.ofNat (Bytes.toNat (Bytes.ofNat 2 id.toNat)) = id := by
    rw [Bytes.toNat_ofNat, Nat.mod_eq_of_lt fits, UInt16.ofNat_toNat]
  exact ⟨_, rfl, number⟩

/-- A buffer that starts with a brace is a text or nothing. -/
theorem message_of_openBrace {s : Bytes} (brace : s.head? = some openBrace) :
    message maxPacketId s =
      match Utf8.decode s with
      | .ok text => .ok (some (.json text))
      | .error flaw => .error (.notText flaw) := by
  obtain ⟨s, rfl⟩ := List.head?_eq_some_iff.1 brace
  rw [message.eq_def]
  exact if_pos (beq_self_eq_true openBrace)

/-- Which buffers are taken for a text. -/
theorem message_eq_json_iff {s : Bytes} {text : String} :
    message maxPacketId s = .ok (some (.json text)) ↔
      s = Utf8.encode text ∧ text.toList.head? = some '{' := by
  rw [← head?_encode_eq_openBrace_iff]
  constructor
  · intro h
    have brace : s.head? = some openBrace := by
      unfold message at h
      split at h
      · cases h
      · split_ifs at h with brace
        · rw [List.head?_cons, beq_iff_eq.1 brace]
        · split at h
          · cases h
          · simp only at h
            split_ifs at h
            cases h
    rw [message_of_openBrace brace] at h
    cases decoded : Utf8.decode s with
    | error flaw => simp [decoded] at h
    | ok other =>
        simp only [decoded, Except.ok.injEq, Option.some.injEq, Packet.json.injEq] at h
        obtain rfl := h
        obtain rfl := Utf8.decode_eq_ok_iff.1 decoded
        exact ⟨rfl, brace⟩
  · rintro ⟨rfl, brace⟩
    rw [message_of_openBrace brace, Utf8.decode_encode]

/-- Which binary messages are taken for what they are. -/
theorem message_encode_eq_binary_iff {id : UInt16} {payload : Bytes} :
    message maxPacketId (encode id payload) = .ok (some (.binary id payload)) ↔
      id ≤ maxPacketId ∧ UInt8.ofNat id.toNat ≠ openBrace := by
  obtain ⟨b, bytes, number⟩ := exists_encode_eq id payload
  by_cases brace : UInt8.ofNat id.toNat = openBrace
  · have start : (encode id payload).head? = some openBrace := by
      rw [bytes, List.head?_cons, brace]
    rw [message_of_openBrace start]
    cases Utf8.decode (encode id payload) <;> simp [brace]
  · rw [bytes, message, if_neg (by simpa using brace)]
    simp only [number]
    split_ifs with strange
    · simp [UInt16.not_le.2 strange]
    · exact iff_of_true rfl ⟨UInt16.not_lt.1 strange, brace⟩

variable {ε : Type} {accept : List Packet → Except ε Unit}

/-- One packet comes out of a buffer exactly if the buffer is its message and it is accepted. -/
theorem read_eq_singleton_iff {s : Bytes} {p : Packet} {n : Nat} :
    read maxPacketId accept s = ⟨[p], .ok n⟩ ↔
      message maxPacketId s = .ok (some p) ∧ accept [p] = .ok () ∧ n = s.length := by
  unfold read
  cases message maxPacketId s with
  | error f => simp
  | ok found =>
      cases found with
      | none => simp
      | some q =>
          simp only [Except.ok.injEq, Option.some.injEq]
          cases judged : accept [q] with
          | error e =>
              simp only [Intake.mk.injEq, List.cons.injEq, and_true, reduceCtorEq, and_false,
                false_iff, not_and]
              rintro rfl accepted
              rw [judged] at accepted
              cases accepted
          | ok =>
              simp only [Intake.mk.injEq, List.cons.injEq, and_true, Except.ok.injEq]
              constructor
              · rintro ⟨rfl, rfl⟩
                exact ⟨rfl, judged, rfl⟩
              · rintro ⟨rfl, -, rfl⟩
                exact ⟨rfl, rfl⟩

/-- How far the two forms of a message are told apart: which messages come back, and what
becomes of a binary message that starts like a text. -/
structure TellsApart (maxPacketId : UInt16) (accept : List Packet → Except ε Unit) : Prop where
  binary_iff : ∀ id payload,
    read maxPacketId accept (encode id payload) =
        ⟨[.binary id payload], .ok (encode id payload).length⟩ ↔
      (id ≤ maxPacketId ∧ UInt8.ofNat id.toNat ≠ openBrace) ∧ accept [.binary id payload] = .ok ()
  json_iff : ∀ text,
    read maxPacketId accept (Utf8.encode text) = ⟨[.json text], .ok (Utf8.encode text).length⟩ ↔
      text.toList.head? = some '{' ∧ accept [.json text] = .ok ()
  mistaken : ∀ id payload, UInt8.ofNat id.toNat = openBrace →
    (∃ text, Utf8.encode text = encode id payload ∧
      (read maxPacketId accept (encode id payload)).packets = [.json text]) ∨
    (∀ text, encode id payload ≠ Utf8.encode text) ∧
      ∃ flaw, read maxPacketId accept (encode id payload) = ⟨[], .error (.fault (.notText flaw))⟩

/-- Tagged messages are told apart up to the ids whose low byte is a brace. -/
theorem tells_apart (maxPacketId : UInt16) (accept : List Packet → Except ε Unit) :
    TellsApart maxPacketId accept where
  binary_iff id payload := by
    rw [read_eq_singleton_iff, message_encode_eq_binary_iff]
    simp only [and_true]
  json_iff text := by
    rw [read_eq_singleton_iff, message_eq_json_iff]
    simp only [true_and, and_true]
  mistaken id payload brace := by
    obtain ⟨b, bytes, -⟩ := exists_encode_eq id payload
    have start : (encode id payload).head? = some openBrace := by
      rw [bytes, List.head?_cons, brace]
    have mistaken : message maxPacketId (encode id payload) = _ := message_of_openBrace start
    cases decoded : Utf8.decode (encode id payload) with
    | error flaw =>
        rw [decoded] at mistaken
        refine .inr ⟨Utf8.exists_decode_eq_error_iff.1 ⟨flaw, decoded⟩, flaw, ?_⟩
        rw [read, mistaken]
    | ok text =>
        rw [decoded] at mistaken
        refine .inl ⟨text, (Utf8.decode_eq_ok_iff.1 decoded).symm, ?_⟩
        rw [read, mistaken]
        simp only
        split <;> rfl

/-- An allowed id whose message is taken for a text. -/
theorem mistakes_allowed_id :
    (123 : UInt16) ≤ 1000 ∧
      read 1000 (fun _ => (.ok () : Except Empty Unit)) (encode 123 (Utf8.encode "hello")) =
        ⟨[.json "\x7b\x00hello"], .ok 7⟩ := by
  refine ⟨by decide, read_eq_singleton_iff.2 ⟨?_, rfl, by decide⟩⟩
  rw [message_eq_json_iff]
  decide

end Wire.Tagged

end ChatHall
