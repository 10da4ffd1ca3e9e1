/-
# What a connection hears

A connection whose handler is handed frames hears the same whatever the socket makes
of the stream and whatever else its threads do: the packets that a single read of
all bytes hands over, and an end by itself exactly if that read is stopped. The
ends that the buffer could put to the loop never come.
-/

import ChatHall.Proofs.Session.Loop
import ChatHall.Server.Service

namespace ChatHall.Session

open ChatHall.Wire (Limits Packet)

section Read

variable {limits : Limits} {accept : List Packet → Except Refusal Unit}

/-- More bytes make a read hand over more packets at most. -/
theorem isPrefix_packets_append (heard more : Bytes) :
    (Wire.Frame.read limits accept heard).packets <+:
      (Wire.Frame.read limits accept (heard ++ more)).packets := by
  cases outcome : (Wire.Frame.read limits accept heard).outcome with
  | error stop =>
      have same : Wire.Frame.read limits accept (heard ++ more) =
          Wire.Frame.read limits accept heard := Wire.Frame.readFrom_append_of_error outcome more
      exact same ▸ List.prefix_rfl
  | ok n =>
      have whole : Wire.Frame.read limits accept heard =
          ⟨(Wire.Frame.read limits accept heard).packets.reverse.reverse, .ok n⟩ := by
        rw [List.reverse_reverse, ← outcome]
      rw [Wire.Frame.read_append whole more, Wire.Intake.after, List.reverse_reverse]
      exact List.prefix_append _ _

/-- The ending that a stopped read puts to the loop tells of the verdict on it. -/
theorem stops_ofHalt {stop : Wire.Halt Refusal} {i : Wire.Intake Refusal}
    (outcome : i.outcome = .error stop) : (Ending.ofHalt stop).stops = [verdictOf i] := by
  rw [verdictOf, outcome]
  rcases stop with f | e | p
  · rfl
  · rfl
  · rfl

end Read

namespace Connection

variable {σ : Type} {handler : Handler σ} {view : σ → List Packet}
variable {limits : Limits} {accept : List Packet → Except Refusal Unit}
variable {c d : Connection σ} {sent : Bytes} {reads : List Bytes}

/-- What a read of the bytes `heard` says of a loop. -/
structure Heard (limits : Limits) (accept : List Packet → Except Refusal Unit) (heard : Bytes)
    (seen : List Packet) (stops : List Verdict) : Prop where
  packets : seen.reverse = (Wire.Frame.read limits accept heard).packets
  stops_iff : stops ≠ [] ↔ ∃ stop, (Wire.Frame.read limits accept heard).outcome = .error stop
  verdict : ∀ verdict ∈ stops, verdict = verdictOf (Wire.Frame.read limits accept heard)

section Run

variable (header : Wire.Frame.headerSize ≤ limits.maxFrameSize)
variable (paced : Receiver.Paced (gather limits accept) [] (.new limits.maxFrameSize) reads)
variable {seen : List Packet}

include header paced

theorem heard_of_ok {r : Receiver}
    (ran : Receiver.run (gather limits accept) [] (.new limits.maxFrameSize) reads =
      (seen, .ok r)) : Heard limits accept reads.flatten seen [] := by
  obtain ⟨packets, ⟨r, -, caught⟩ | ⟨stop, wrong, -⟩⟩ := Receiver.run_eq_read header paced ran
  · obtain ⟨n, whole, -⟩ := caught.read_eq
    refine ⟨packets.symm, ⟨fun wrong => absurd rfl wrong, ?_⟩, fun _ mem => (nomatch mem)⟩
    rintro ⟨stop, stopped⟩
    rw [whole] at stopped
    contradiction
  · contradiction

theorem heard_of_error {e : Ending}
    (ran : Receiver.run (gather limits accept) [] (.new limits.maxFrameSize) reads =
      (seen, .error e)) : Heard limits accept reads.flatten seen e.stops := by
  obtain ⟨packets, ⟨r, wrong, -⟩ | ⟨stop, same, outcome⟩⟩ := Receiver.run_eq_read header paced ran
  · contradiction
  · rw [Except.error.inj same, stops_ofHalt outcome]
    exact ⟨packets.symm, ⟨fun _ => ⟨stop, outcome⟩, fun _ => List.cons_ne_nil _ _⟩,
      fun _ mem => List.mem_singleton.1 mem⟩

/-- A loop has heard all bytes that have been read, but for those it is about to hand over. -/
theorem Loop.heard {r : Receiver} {stops : List Verdict} {left : List Operation}
    (loop : Loop (gather limits accept) [] limits.maxFrameSize reads seen r stops left) :
    ∃ heard later, reads.flatten = heard ++ later ∧ (.deliver ∉ left → later = []) ∧
      Heard limits accept heard seen stops := by
  have all (heard : Heard limits accept reads.flatten seen stops) :
      ∃ heard later, reads.flatten = heard ++ later ∧ (.deliver ∉ left → later = []) ∧
        Heard limits accept heard seen stops :=
    ⟨_, [], (List.append_nil _).symm, fun _ => rfl, heard⟩
  cases loop with
  | ready ran => exact all (heard_of_ok header paced ran)
  | waiting ran => exact all (heard_of_ok header paced ran)
  | full ran => exact all (heard_of_ok header paced ran)
  | left ran => exact all (heard_of_ok header paced ran)
  | ended r ran => exact all (heard_of_error header paced ran)
  | given ran =>
      apply all
      cases judged : r.judge _ with
      | ok next =>
          rw [judged] at ran
          rw [Receiver.stops_of_judge_ok judged]
          exact heard_of_ok header paced ran
      | error e =>
          rw [judged] at ran
          rw [Receiver.stops_of_judge_error judged]
          exact heard_of_error header paced ran
  | taken ran prepared fills =>
      refine ⟨_, _, List.flatten_append, fun given => ?_, ?_⟩
      · exact absurd List.mem_cons_self given
      · exact heard_of_ok header (Receiver.paced_of_append paced) ran

theorem Loop.room {r : Receiver} {stops : List Verdict}
    (loop : Loop (gather limits accept) [] limits.maxFrameSize reads seen r stops [.prepare]) :
    ∃ ready, r.prepare = .ok ready := by
  cases loop with
  | ready ran =>
      obtain ⟨-, ⟨r', same, caught⟩ | ⟨stop, wrong, -⟩⟩ := Receiver.run_eq_read header paced ran
      · obtain rfl := Except.ok.inj same
        obtain ⟨ready, prepared, -, -⟩ := caught.prepare header
        exact ⟨ready, prepared⟩
      · contradiction

theorem Loop.fits {ready : Receiver} {stops : List Verdict}
    (loop : Loop (gather limits accept) [] limits.maxFrameSize reads seen ready stops [.await]) :
    0 < ready.buffer.freeSize ∧
      ∀ data, data.length ≤ ready.buffer.freeSize → ∃ filled, ready.takeIn data = .ok filled := by
  cases loop with
  | waiting ran prepared =>
      obtain ⟨-, ⟨r', same, caught⟩ | ⟨stop, wrong, -⟩⟩ := Receiver.run_eq_read header paced ran
      · obtain rfl := Except.ok.inj same
        obtain ⟨ready', prepared', room, -⟩ := caught.prepare header
        obtain rfl := Except.ok.inj (prepared.symm.trans prepared')
        refine ⟨room, fun data fits => ?_⟩
        obtain ⟨filled, taken, -⟩ := Receiver.takeIn_of_le fits
        exact ⟨filled, taken⟩
      · contradiction

theorem Loop.judged {filled : Receiver} {stops : List Verdict} {verdict : Verdict} {e : Ending}
    (loop : Loop (gather limits accept) [] limits.maxFrameSize reads seen filled stops
      [.judge verdict]) (judged : filled.judge verdict = .error e) :
    ∃ stop, (Wire.Frame.read limits accept reads.flatten).outcome = .error stop ∧
      e = .ofHalt stop := by
  cases loop with
  | given ran =>
      rw [judged] at ran
      obtain ⟨-, ⟨r', wrong, -⟩ | ⟨stop, same, outcome⟩⟩ := Receiver.run_eq_read header paced ran
      · contradiction
      · exact ⟨stop, outcome, Except.error.inj same⟩

end Run

theorem Loop.ends {τ : Type} {hook : τ → Bytes → τ × Verdict} {t₀ t : τ} {size : Nat}
    {r : Receiver} {stops : List Verdict} {left : List Operation}
    (loop : Loop hook t₀ size reads t r stops left) (stopped : stops ≠ []) :
    left = [] ∨ ∃ verdict e, left = [.judge verdict] ∧ r.judge verdict = .error e := by
  cases loop with
  | given ran =>
      right
      cases judged : r.judge _ with
      | ok next => exact absurd (Receiver.stops_of_judge_ok judged) stopped
      | error e => exact ⟨_, e, rfl, judged⟩
  | ended r ran => exact .inl rfl
  | _ => contradiction

/-- A read that has been stopped does not hear what comes after that. -/
theorem Heard.append {heard : Bytes} {seen : List Packet} {stops : List Verdict}
    (h : Heard limits accept heard seen stops) (stopped : stops ≠ []) (more : Bytes) :
    Heard limits accept (heard ++ more) seen stops := by
  obtain ⟨stop, outcome⟩ := h.stops_iff.1 stopped
  have same : Wire.Frame.read limits accept (heard ++ more) = Wire.Frame.read limits accept heard :=
    Wire.Frame.readFrom_append_of_error outcome more
  refine ⟨?_, ?_, ?_⟩
  · rw [same]
    exact h.packets
  · rw [same]
    exact h.stops_iff
  · rw [same]
    exact h.verdict

/-! ## Whatever the threads do -/

/-- A connection of a handler that is handed frames, to which the peer has sent these bytes. -/
structure Hears (limits : Limits) (accept : List Packet → Except Refusal Unit)
    (view : σ → List Packet) (sent : Bytes) (c : Connection σ) : Prop where
  /-- The packets handed over so far are the first ones that a single read of all bytes hands
  over. -/
  delivered : (view c.state).reverse <+: (Wire.Frame.read limits accept sent).packets
  /-- Once nothing is left to read and to hand over they are all of them, and the loop has been
  stopped if and only if the single read is. -/
  complete : c.inbox = [] → .deliver ∉ c.looping →
    (view c.state).reverse = (Wire.Frame.read limits accept sent).packets ∧
      (c.stops ≠ [] ↔ ∃ stop, (Wire.Frame.read limits accept sent).outcome = .error stop)
  /-- A loop that has been stopped was so by the verdict on the single read, behind the same
  packets, whatever else there is to read. -/
  stopped : ∀ verdict ∈ c.stops, verdict = verdictOf (Wire.Frame.read limits accept sent) ∧
    (view c.state).reverse = (Wire.Frame.read limits accept sent).packets
  /-- Packets that keep to the limits and are accepted are handed over, up to the size of the
  buffer. -/
  framed : ∀ ps rest, (∀ p ∈ ps, p.Within limits) →
    (∀ k < ps.length, accept (ps.take (k + 1)).reverse = .ok ()) →
    sent = ps.flatMap Wire.Frame.ofPacket ++ rest → c.inbox = [] → .deliver ∉ c.looping →
    ps <+: (view c.state).reverse
  /-- The buffer is never full when a read comes. -/
  room : c.looping = [.prepare] → ∃ ready, c.receiver.prepare = .ok ready
  /-- No read brings too much. -/
  fits : c.looping = [.await] → 0 < c.receiver.buffer.freeSize ∧
    ∀ data, data.length ≤ c.receiver.buffer.freeSize → ∃ filled, c.receiver.takeIn data = .ok filled
  /-- The loop ends by itself only as the single read is stopped, so never because the buffer is
  full or too many bytes are claimed. -/
  judged : ∀ verdict e, c.looping = [.judge verdict] → c.receiver.judge verdict = .error e →
    ∃ stop, (Wire.Frame.read limits accept sent).outcome = .error stop ∧ e = .ofHalt stop
  /-- Once it is stopped it does end. -/
  ends : c.stops ≠ [] →
    c.looping = [] ∨ ∃ verdict e, c.looping = [.judge verdict] ∧ c.receiver.judge verdict = .error e
  /-- Who does not listen any more is disconnected. -/
  dropped : c.looping = [] → c.IsDropped

/-- Every run of a connection whose handler is handed frames. -/
theorem hears_of_run (c : Net.Settings) (valid : c.validate = .ok ())
    (accept : List Packet → Except Refusal Unit) {handler : Handler σ} {view : σ → List Packet}
    (shows : handler.Shows view (gather c.limits accept)) {s₀ : σ} (nothing : view s₀ = [])
    {sent : Bytes} {d : Connection σ} (run : Run handler (start s₀ c.recvBufferSize) sent d) :
    Hears c.limits accept view sent d := by
  have header := Receiver.headerSize_le_of_validate valid
  obtain ⟨⟨reads, paced, total, loop⟩, dropped⟩ := abreast_of_run shows run
  rw [nothing] at paced loop
  obtain ⟨heard, later, split, given, hears⟩ := loop.heard header paced
  rw [split, List.append_assoc] at total
  have complete (read : d.inbox = []) (handed : .deliver ∉ d.looping) : heard = sent := by
    rw [given handed, read, List.append_nil, List.append_nil] at total
    exact total
  have sequel (stopped : d.stops ≠ []) : Heard c.limits accept sent (view d.state) d.stops :=
    total ▸ hears.append stopped (later ++ d.inbox)
  exact {
    delivered := by
      rw [hears.packets, ← total]
      exact isPrefix_packets_append heard _
    complete := by
      intro read handed
      rw [← complete read handed]
      exact ⟨hears.packets, hears.stops_iff⟩
    stopped := by
      intro verdict mem
      have heard := sequel (List.ne_nil_of_mem mem)
      exact ⟨heard.verdict verdict mem, heard.packets⟩
    framed := by
      intro ps rest within accepted stream read handed
      have found := Receiver.isPrefix_packets within accepted rest
      rw [← stream, ← complete read handed, ← hears.packets] at found
      exact found
    room := fun ready => (ready ▸ loop).room header paced
    fits := fun waiting => (waiting ▸ loop).fits header paced
    judged := by
      intro verdict e judging judged
      have asked : .deliver ∉ d.looping := by
        rw [judging, List.mem_singleton]
        exact Operation.noConfusion
      obtain ⟨stop, outcome, same⟩ := (judging ▸ loop).judged header paced judged
      have sequel := Wire.Frame.readFrom_append_of_error outcome d.inbox
      rw [given asked, List.append_nil] at split
      rw [given asked, List.nil_append, ← split] at total
      refine ⟨stop, ?_, same⟩
      rw [← total, Wire.Frame.read, sequel]
      exact outcome
    ends := loop.ends
    dropped := dropped }

/-! ## The hooks of the server -/

/-- The packets that a hall has learnt of, latest first. -/
def packetsOf (seen : List Server.Incoming) : List Packet :=
  (seen.filterMap fun
    | .packet p => some p
    | _ => none).reverse

theorem packetsOf_concat (seen : List Server.Incoming) (packets : List Packet) :
    packetsOf (seen ++ packets.map .packet) = packets.reverse ++ packetsOf seen := by
  rw [packetsOf, List.filterMap_append, List.reverse_append, List.filterMap_map]
  congr 2
  exact List.filterMap_some

theorem shows_reception (limits : Limits) :
    (Server.reception limits).Shows packetsOf (gather limits fun _ => .ok ()) where
  onReceived seen given := by
    rw [gather, Server.reception, packetsOf_concat]
  onConnected seen := by
    rw [Server.reception, packetsOf, List.filterMap_append]
    exact congrArg List.reverse (List.append_nil _)
  onSent seen n := rfl
  onDisconnected seen := by
    rw [Server.reception, packetsOf, List.filterMap_append]
    exact congrArg List.reverse (List.append_nil _)

/-- A JSON frame and a frame as large as the buffer. -/
def twoFrames : Bytes :=
  Wire.Frame.ofPacket (.json "é") ++ Wire.Frame.ofPacket (.binary 7 (Bytes.zeros 58))

/-- They are read in pieces: the cuts are inside a length, inside a character and inside the large
payload. -/
def cutMoves : List (Nat × Choice) :=
  (0, .plain) :: [2, 5, 50, twoFrames.length - 57].flatMap fun n =>
    [(0, .plain), (0, .moved n), (0, .plain), (0, .plain)]

theorem hears_of_run_cutMoves :
    let c : Net.Settings := { recvBufferSize := 64 }
    c.validate = .ok () ∧ packetsOf [] = [] ∧
      (Server.reception c.limits).Shows packetsOf (gather c.limits fun _ => .ok ()) ∧
      ∃ d, Run (Server.reception c.limits) (start [] c.recvBufferSize) twoFrames d ∧
        [.json "é", .binary 7 (Bytes.zeros 58)] <+: (packetsOf d.state).reverse := by
  intro c
  have valid : c.validate = .ok () := by decide
  have shows := shows_reception c.limits
  have sent : Run (Server.reception c.limits) (start [] c.recvBufferSize) twoFrames
      { start [] c.recvBufferSize with inbox := twoFrames } := Run.refl.peerSends twoFrames rfl
  have moved : ((({ start [] c.recvBufferSize with inbox := twoFrames } : Connection _).steps?
      (Server.reception c.limits) cutMoves).map fun d => (d.inbox, d.looping)) =
      some ([], [.prepare]) := by
    decide +kernel
  obtain ⟨d, moves, after⟩ := Option.map_eq_some_iff.1 moved
  obtain ⟨read, ready⟩ := Prod.mk.inj after
  have run := sent.steps moves
  have hears := hears_of_run c valid (fun _ => .ok ()) shows rfl run
  refine ⟨valid, rfl, shows, d, run, ?_⟩
  apply hears.framed _ [] _ _ (List.append_nil _).symm read
  · rw [ready]
    decide
  · intro p hp
    simp only [List.mem_cons, List.not_mem_nil, or_false] at hp
    rcases hp with rfl | rfl
    · exact ⟨fun _ _ h => (by cases h), by decide, by decide, by decide⟩
    · exact ⟨fun _ _ h => (by cases h; decide), by decide, by decide, by decide⟩
  · intro k _
    rfl

end Connection

end ChatHall.Session
