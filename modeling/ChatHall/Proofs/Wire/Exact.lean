/-
# Where a reader of frames stops

Every byte string starts with frames within the limits, and behind those that
the judge of the packets lets pass it comes to a place where reading stops. What
these places look like is said here about the bytes alone: what may still become
a frame, what can never become one, and a frame whose packet is turned away. No
byte string is two of these at once, so a reader hands over the packets in front
of the place and nothing else, and the place tells what it answers.
-/

import ChatHall.Proofs.Wire.Stream

namespace ChatHall.Wire.Frame

open ChatHall.Text

/-- A header, and what follows it. -/
def headed (total : Nat) (id : UInt16) (body : Bytes) : Bytes :=
  Bytes.ofNat 4 total ++ (Bytes.ofNat 2 id.toNat ++ body)

/-- Bytes that may still become a frame: too few for a header, or a header within the limits
with fewer bytes behind it than it announces. -/
inductive Unfinished (limits : Limits) : Bytes → Prop
  | header {s : Bytes} (fewer : s.length < headerSize) : Unfinished limits s
  | body {total : Nat} {id : UInt16} {s : Bytes} (size_lt : total < Bytes.capacity 4)
      (size_le : total ≤ limits.maxFrameSize) (id_le : id ≤ limits.maxPacketId)
      (fewer : headerSize + s.length < total) : Unfinished limits (headed total id s)

/-- Bytes that can never become a frame, and what is said of them. -/
inductive Faulty (limits : Limits) : Bytes → Fault → Prop
  | tooShort {total : Nat} {id : UInt16} {s : Bytes} (short : total < headerSize) :
      Faulty limits (headed total id s) (.frameTooShort total)
  | tooLong {total : Nat} {id : UInt16} {s : Bytes} (size_lt : total < Bytes.capacity 4)
      (size_ge : headerSize ≤ total) (long : limits.maxFrameSize < total) :
      Faulty limits (headed total id s) (.frameTooLong total limits.maxFrameSize)
  | strangeId {total : Nat} {id : UInt16} {s : Bytes} (size_lt : total < Bytes.capacity 4)
      (size_ge : headerSize ≤ total) (size_le : total ≤ limits.maxFrameSize)
      (strange : limits.maxPacketId < id) : Faulty limits (headed total id s) (.strangeId id)
  | notText {payload rest : Bytes} {flaw : Utf8.Flaw}
      (size_lt : headerSize + payload.length < Bytes.capacity 4)
      (size_le : headerSize + payload.length ≤ limits.maxFrameSize)
      (noText : ∀ text, payload ≠ Utf8.encode text) (flawed : Utf8.decode payload = .error flaw) :
      Faulty limits (encode jsonId payload ++ rest) (.notText flaw)

section Header

theorem encode_append (id : UInt16) (payload rest : Bytes) :
    encode id payload ++ rest = headed (headerSize + payload.length) id (payload ++ rest) := by
  rw [encode, headed, List.append_assoc, List.append_assoc]

/-- The bytes of a header write its two numbers. -/
theorem exists_headed_eq {total : Nat} (id : UInt16) (body : Bytes)
    (size_lt : total < Bytes.capacity 4) :
    ∃ l₀ l₁ l₂ l₃ i₀ i₁, headed total id body = l₀ :: l₁ :: l₂ :: l₃ :: i₀ :: i₁ :: body ∧
      Bytes.toNat [l₀, l₁, l₂, l₃] = total ∧ UInt16.ofNat (Bytes.toNat [i₀, i₁]) = id := by
  have fits : id.toNat < Bytes.capacity 2 := id.toNat_lt
  have length : Bytes.toNat (Bytes.ofNat 4 total) = total := by
    rw [Bytes.toNat_ofNat, Nat.mod_eq_of_lt size_lt]
  have number : UInt16.ofNat (Bytes.toNat (Bytes.ofNat 2 id.toNat)) = id := by
    rw [Bytes.toNat_ofNat, Nat.mod_eq_of_lt fits, UInt16.ofNat_toNat]
  exact ⟨_, _, _, _, _, _, rfl, length, number⟩

/-- Whatever is long enough starts with a header. -/
theorem exists_eq_headed {s : Bytes} (long : headerSize ≤ s.length) :
    ∃ total id body, total < Bytes.capacity 4 ∧ s = headed total id body := by
  obtain ⟨l₀, l₁, l₂, l₃, i₀, i₁, body, rfl⟩ :
      ∃ l₀ l₁ l₂ l₃ i₀ i₁ body, s = l₀ :: l₁ :: l₂ :: l₃ :: i₀ :: i₁ :: body := by
    rcases s with _ | ⟨l₀, _ | ⟨l₁, _ | ⟨l₂, _ | ⟨l₃, _ | ⟨i₀, _ | ⟨i₁, body⟩⟩⟩⟩⟩⟩
    iterate 6 simp [headerSize] at long
    exact ⟨l₀, l₁, l₂, l₃, i₀, i₁, body, rfl⟩
  have fits : Bytes.toNat [i₀, i₁] < UInt16.size := Bytes.toNat_lt [i₀, i₁]
  have number : (UInt16.ofNat (Bytes.toNat [i₀, i₁])).toNat = Bytes.toNat [i₀, i₁] :=
    UInt16.toNat_ofNat_of_lt' fits
  refine ⟨Bytes.toNat [l₀, l₁, l₂, l₃], UInt16.ofNat (Bytes.toNat [i₀, i₁]), body,
    Bytes.toNat_lt [l₀, l₁, l₂, l₃], ?_⟩
  have four := Bytes.ofNat_toNat [l₀, l₁, l₂, l₃]
  have two := Bytes.ofNat_toNat [i₀, i₁]
  simp only [List.length_cons, List.length_nil] at four two
  rw [headed, number, four, two]
  rfl

end Header

variable {limits : Limits}

theorem front_of_unfinished {s : Bytes} (h : Unfinished limits s) :
    front limits s = .incomplete := by
  cases h with
  | header fewer => exact front_of_length_lt limits fewer
  | @body total id s size_lt size_le id_le fewer =>
      obtain ⟨l₀, l₁, l₂, l₃, i₀, i₁, bytes, rfl, rfl⟩ := exists_headed_eq id s size_lt
      rw [bytes]
      apply front_of_splitExact?_none limits
      · exact (headerFault?_eq_none_iff ..).2 ⟨by omega, size_le, id_le⟩
      · rw [Bytes.splitExact?_eq_none_iff]
        omega

theorem front_of_faulty {s : Bytes} {f : Fault} (h : Faulty limits s f) :
    front limits s = .invalid f := by
  cases h with
  | @tooShort total id s short =>
      obtain ⟨l₀, l₁, l₂, l₃, i₀, i₁, bytes, rfl, rfl⟩ :=
        exists_headed_eq id s (Nat.lt_trans short (by decide))
      rw [bytes]
      apply front_of_headerFault? limits
      rw [headerFault?, if_pos short]
  | @tooLong total id s size_lt size_ge long =>
      obtain ⟨l₀, l₁, l₂, l₃, i₀, i₁, bytes, rfl, rfl⟩ := exists_headed_eq id s size_lt
      rw [bytes]
      apply front_of_headerFault? limits
      rw [headerFault?, if_neg (Nat.not_lt.2 size_ge), if_pos long]
  | @strangeId total id s size_lt size_ge size_le strange =>
      obtain ⟨l₀, l₁, l₂, l₃, i₀, i₁, bytes, rfl, rfl⟩ := exists_headed_eq id s size_lt
      rw [bytes]
      apply front_of_headerFault? limits
      rw [headerFault?, if_neg (Nat.not_lt.2 size_ge), if_neg (Nat.not_lt.2 size_le),
        if_pos strange]
  | @notText payload rest flaw size_lt size_le noText flawed =>
      obtain ⟨l₀, l₁, l₂, l₃, i₀, i₁, bytes, total, id⟩ :=
        exists_headed_eq jsonId (payload ++ rest) size_lt
      have good : headerFault? limits (headerSize + payload.length) jsonId = none :=
        (headerFault?_eq_none_iff ..).2 ⟨Nat.le_add_right .., size_le, UInt16.zero_le⟩
      have whole := Bytes.splitExact?_append payload rest
      have bad : packetOf jsonId payload = .error (.notText flaw) := by
        simp [packetOf, flawed]
      rw [encode_append, bytes]
      rw [← total, ← id] at good
      rw [← id] at bad
      rw [← Nat.add_sub_cancel_left headerSize payload.length, ← total] at whole
      exact front_of_packetOf_error limits good whole bad

/-- What a whole frame with a good header holds. -/
theorem packetOf_cases {id : UInt16} {payload : Bytes}
    (size_lt : headerSize + payload.length < Bytes.capacity 4)
    (size_le : headerSize + payload.length ≤ limits.maxFrameSize)
    (id_le : id ≤ limits.maxPacketId) (rest : Bytes) :
    (∃ f, Faulty limits (encode id payload ++ rest) f) ∨
      ∃ p : Packet, p.Within limits ∧ ofPacket p = encode id payload := by
  by_cases json : id = jsonId
  · subst json
    cases decoded : Utf8.decode payload with
    | error flaw =>
        exact .inl ⟨_, .notText size_lt size_le (Utf8.exists_decode_eq_error_iff.1 ⟨flaw, decoded⟩)
          decoded⟩
    | ok text =>
        obtain rfl := Utf8.decode_eq_ok_iff.1 decoded
        exact .inr ⟨.json text, ⟨nofun, id_le, size_le, size_lt⟩, rfl⟩
  · refine .inr ⟨.binary id payload, ⟨?_, id_le, size_le, size_lt⟩, rfl⟩
    rintro _ _ ⟨⟩
    exact json

/-- Every byte string may still become a frame, can never become one, or starts with one. -/
theorem start_cases (limits : Limits) (s : Bytes) :
    Unfinished limits s ∨ (∃ f, Faulty limits s f) ∨
      ∃ (p : Packet) (rest : Bytes), p.Within limits ∧ s = ofPacket p ++ rest := by
  by_cases fewer : s.length < headerSize
  · exact .inl (.header fewer)
  obtain ⟨total, id, body, size_lt, rfl⟩ := exists_eq_headed (Nat.not_lt.1 fewer)
  by_cases short : total < headerSize
  · exact .inr (.inl ⟨_, .tooShort short⟩)
  have size_ge := Nat.not_lt.1 short
  by_cases long : limits.maxFrameSize < total
  · exact .inr (.inl ⟨_, .tooLong size_lt size_ge long⟩)
  have size_le := Nat.not_lt.1 long
  by_cases strange : limits.maxPacketId < id
  · exact .inr (.inl ⟨_, .strangeId size_lt size_ge size_le strange⟩)
  have id_le := UInt16.not_lt.1 strange
  cases whole : Bytes.splitExact? (total - headerSize) body with
  | none =>
      have fewer := (Bytes.splitExact?_eq_none_iff ..).1 whole
      exact .inl (.body size_lt size_le id_le (by omega))
  | some parts =>
      obtain ⟨payload, rest⟩ := parts
      obtain ⟨rfl, length⟩ := Bytes.eq_append_of_splitExact? whole
      obtain rfl : headerSize + payload.length = total := by omega
      rw [← encode_append]
      rcases packetOf_cases size_lt size_le id_le rest with faulty | ⟨p, within, same⟩
      · exact .inr (.inl faulty)
      · exact .inr (.inr ⟨p, rest, within, by rw [same]⟩)

/-- A part of a frame may still become one. -/
theorem unfinished_take {p : Packet} (within : p.Within limits) {k : Nat}
    (part : k < (ofPacket p).length) : Unfinished limits ((ofPacket p).take k) := by
  rw [ofPacket_eq_encode, length_encode] at part
  by_cases fewer : k < headerSize
  · refine .header ?_
    rw [List.length_take]
    omega
  · obtain ⟨j, rfl⟩ := Nat.exists_eq_add_of_le (Nat.not_lt.1 fewer)
    have front : (ofPacket p).take (headerSize + j) =
        headed (headerSize + p.content.2.length) p.content.1 (p.content.2.take j) := by
      rw [ofPacket_eq_encode, encode, headed, ← List.append_assoc, ← List.append_assoc]
      have header : (Bytes.ofNat 4 (headerSize + p.content.2.length) ++
          Bytes.ofNat 2 p.content.1.toNat).length = headerSize := by
        rw [List.length_append, Bytes.length_ofNat, Bytes.length_ofNat]
        rfl
      rw [List.take_append, List.take_of_length_le (by rw [header]; exact Nat.le_add_right ..),
        header, Nat.add_sub_cancel_left]
    rw [front]
    refine .body within.size_lt within.size_le within.id_le ?_
    rw [List.length_take]
    omega

variable {ε : Type} {accept : List Packet → Except ε Unit}

/-- Whether a judge lets pass all packets of a list that are handed over one by one. -/
def Accepted (accept : List Packet → Except ε Unit) (ps : List Packet) : Prop :=
  ∀ k < ps.length, accept (ps.take (k + 1)).reverse = .ok ()

theorem Accepted.concat {ps : List Packet} {p : Packet} (h : Accepted accept ps)
    (last : accept (p :: ps.reverse) = .ok ()) : Accepted accept (ps ++ [p]) := by
  intro k hk
  rw [List.length_append, List.length_singleton] at hk
  by_cases earlier : k < ps.length
  · rw [List.take_append_of_le_length earlier]
    exact h k earlier
  · rw [List.take_of_length_le (by simp; omega), List.reverse_append]
    exact last

/-- A place where reading stops behind the packets `ps`, and what comes of it. -/
inductive Stop (limits : Limits) (accept : List Packet → Except ε Unit) (ps : List Packet) :
    Bytes → Intake ε → Prop
  | unfinished {rest : Bytes} (h : Unfinished limits rest) :
      Stop limits accept ps rest ⟨ps, .ok (ps.flatMap ofPacket).length⟩
  | faulty {rest : Bytes} {f : Fault} (h : Faulty limits rest f) :
      Stop limits accept ps rest ⟨ps, .error (.fault f)⟩
  | refused {p : Packet} {rest : Bytes} {e : ε} (within : p.Within limits)
      (h : accept (p :: ps.reverse) = .error e) :
      Stop limits accept ps (ofPacket p ++ rest) ⟨ps ++ [p], .error (.refused e)⟩

/-- A reader that comes to a stop answers as the place says. -/
theorem read_of_stop {ps : List Packet} {rest : Bytes} {i : Intake ε}
    (within : ∀ p ∈ ps, p.Within limits) (accepted : Accepted accept ps)
    (stop : Stop limits accept ps rest i) :
    read limits accept (ps.flatMap ofPacket ++ rest) = i := by
  have passed : ∀ k < ps.length, accept ((ps.take (k + 1)).reverse ++ []) = .ok () := by
    intro k hk
    rw [List.append_nil]
    exact accepted k hk
  rw [read, readFrom_flatMap_ofPacket within [] 0 rest passed, List.append_nil, Nat.zero_add,
    readFrom.eq_def]
  cases stop with
  | unfinished h =>
      rw [front_of_unfinished h]
      simp only [List.reverse_reverse]
  | faulty h =>
      rw [front_of_faulty h]
      simp only [List.reverse_reverse]
  | @refused p rest e within h =>
      obtain ⟨_, first⟩ := front_ofPacket_append within rest
      rw [first]
      simp only [h, List.reverse_cons, List.reverse_reverse]

/-- Behind packets that were let pass there are more of them and then a stop. -/
theorem exists_stop_behind {ps : List Packet} (within : ∀ p ∈ ps, p.Within limits)
    (accepted : Accepted accept ps) (s : Bytes) :
    ∃ qs rest i, s = qs.flatMap ofPacket ++ rest ∧ (∀ p ∈ ps ++ qs, p.Within limits) ∧
      Accepted accept (ps ++ qs) ∧ Stop limits accept (ps ++ qs) rest i := by
  rcases start_cases limits s with h | ⟨f, h⟩ | ⟨p, rest, first, hs⟩
  · exact ⟨[], s, _, rfl, by simpa, by simpa, .unfinished h⟩
  · exact ⟨[], s, _, rfl, by simpa, by simpa, .faulty h⟩
  · cases judged : accept (p :: ps.reverse) with
    | error e =>
        refine ⟨[], s, ⟨ps ++ [p], .error (.refused e)⟩, rfl, by simpa, by simpa, ?_⟩
        rw [List.append_nil, hs]
        exact .refused first judged
    | ok =>
        have all : ∀ q ∈ ps ++ [p], q.Within limits := by
          intro q hq
          rcases List.mem_append.1 hq with earlier | last
          · exact within q earlier
          · rw [List.mem_singleton.1 last]
            exact first
        have shorter : rest.length < s.length := by
          rw [hs, ofPacket_eq_encode, List.length_append, length_encode, headerSize]
          omega
        obtain ⟨qs, rest', i, hrest, within', accepted', stop⟩ :=
          exists_stop_behind all (accepted.concat judged) rest
        refine ⟨p :: qs, rest', i, ?_, ?_⟩
        · rw [hs, hrest, List.flatMap_cons, List.append_assoc]
        · rw [← List.append_cons] at within' accepted' stop
          exact ⟨within', accepted', stop⟩
termination_by s.length

/-- What a reader answers is what the place says where reading stops, and there is one such
place in every byte string. -/
theorem read_eq_iff {s : Bytes} {i : Intake ε} :
    read limits accept s = i ↔
      ∃ ps rest, s = ps.flatMap ofPacket ++ rest ∧ (∀ p ∈ ps, p.Within limits) ∧
        Accepted accept ps ∧ Stop limits accept ps rest i := by
  constructor
  · rintro rfl
    have nothing : ∀ p ∈ ([] : List Packet), p.Within limits := nofun
    have unread : Accepted accept [] := nofun
    obtain ⟨ps, rest, i, rfl, within, accepted, stop⟩ := exists_stop_behind nothing unread s
    rw [List.nil_append] at within accepted stop
    rw [read_of_stop within accepted stop]
    exact ⟨ps, rest, rfl, within, accepted, stop⟩
  · rintro ⟨ps, rest, rfl, within, accepted, stop⟩
    exact read_of_stop within accepted stop

/-- How closely a reader follows the frames: it finds the packets that were written up to a
frame that is not all there, and what it answers on any bytes tells which frames they start
with, whose packets were let pass, and what stands behind them. -/
structure Exact (limits : Limits) (accept : List Packet → Except ε Unit) : Prop where
  reads_back : ∀ ps next k, (∀ p ∈ ps, p.Within limits) → Accepted accept ps →
    next.Within limits → k < (ofPacket next).length →
    read limits accept (ps.flatMap ofPacket ++ (ofPacket next).take k) =
      ⟨ps, .ok (ps.flatMap ofPacket).length⟩
  ok_iff : ∀ s ps n, read limits accept s = ⟨ps, .ok n⟩ ↔
    (∀ p ∈ ps, p.Within limits) ∧ Accepted accept ps ∧ n = (ps.flatMap ofPacket).length ∧
      ∃ rest, s = ps.flatMap ofPacket ++ rest ∧ Unfinished limits rest
  fault_iff : ∀ s ps f, read limits accept s = ⟨ps, .error (.fault f)⟩ ↔
    (∀ p ∈ ps, p.Within limits) ∧ Accepted accept ps ∧
      ∃ rest, s = ps.flatMap ofPacket ++ rest ∧ Faulty limits rest f
  refused_iff : ∀ s ps e, read limits accept s = ⟨ps, .error (.refused e)⟩ ↔
    ∃ done last rest, ps = done ++ [last] ∧ (∀ p ∈ ps, p.Within limits) ∧ Accepted accept done ∧
      accept ps.reverse = .error e ∧ s = ps.flatMap ofPacket ++ rest

/-- Reading frames is exact in both directions, for all limits and every judge. -/
theorem read_exact (limits : Limits) (accept : List Packet → Except ε Unit) :
    Exact limits accept where
  reads_back ps next k within accepted fits part :=
    read_of_stop within accepted (.unfinished (unfinished_take fits part))
  ok_iff s ps n := by
    rw [read_eq_iff]
    constructor
    · rintro ⟨_, rest, rfl, within, accepted, stop⟩
      cases stop with
      | unfinished h => exact ⟨within, accepted, rfl, rest, rfl, h⟩
    · rintro ⟨within, accepted, rfl, rest, rfl, h⟩
      exact ⟨ps, rest, rfl, within, accepted, .unfinished h⟩
  fault_iff s ps f := by
    rw [read_eq_iff]
    constructor
    · rintro ⟨_, rest, rfl, within, accepted, stop⟩
      cases stop with
      | faulty h => exact ⟨within, accepted, rest, rfl, h⟩
    · rintro ⟨within, accepted, rest, rfl, h⟩
      exact ⟨ps, rest, rfl, within, accepted, .faulty h⟩
  refused_iff s ps e := by
    rw [read_eq_iff]
    constructor
    · rintro ⟨done, rest, rfl, within, accepted, stop⟩
      cases stop with
      | @refused last rest _ fits h =>
          refine ⟨done, last, rest, rfl, ?_, accepted, ?_, ?_⟩
          · intro p hp
            rcases List.mem_append.1 hp with earlier | refused
            · exact within p earlier
            · rw [List.mem_singleton.1 refused]
              exact fits
          · rw [List.reverse_append]
            exact h
          · simp
    · rintro ⟨done, last, rest, rfl, within, accepted, h, rfl⟩
      rw [List.reverse_append] at h
      refine ⟨done, ofPacket last ++ rest, by simp, ?_, accepted, .refused ?_ h⟩
      · exact fun p hp => within p (List.mem_append_left [last] hp)
      · exact within last (List.mem_append_right done (List.mem_singleton_self last))

end ChatHall.Wire.Frame
