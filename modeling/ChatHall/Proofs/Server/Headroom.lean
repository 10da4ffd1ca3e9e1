/-
# Headroom

Whoever keeps to short names and modest commands never gets a frame that a client with
the default settings refuses. Without that care a client can lose its connection by what
it asks for: a request to leave a room that there is not fits into a frame, and the
answer, which repeats the name of the room, need not.
-/

import ChatHall.Proofs.Server.Audience
import ChatHall.Proofs.Server.Modest
import ChatHall.Proofs.Server.Reply

namespace ChatHall.Server.World

open ChatHall.Json

variable {w : World} {c : ClientRef} {client : Client}

/-- In every course that opens halls with short default rooms and brings in nothing but short names
and modest commands, every client with an id of 64 bits takes in whatever it is sent. -/
theorem accepted_of_course (defaultRooms : List String) (events : List Event) (w : World)
    (short : ∀ name ∈ defaultRooms, Chat.IsShort name) (bring : ∀ e ∈ events, e.IsModest)
    (course : (opened defaultRooms).afterAll? events = some w) (c : ClientRef) (client : Client)
    (found : w.client? c = some client) (given : client.sessionId < UInt64.size) :
    ∀ o ∈ client.sent, o.IsAccepted :=
  ((modest_opened short).course bring course).clients client (List.mem_of_getElem? found) given

/-- A client comes into the default room. -/
def visit : List Event :=
  [.accept 0, .start 0 true, .arrive 0, .arrive 0, .arrive 0, .arrive 0] ++
    List.replicate 5 (.work 0 0)

/-- A client moves on, asks to leave a room that there is not, and says something that is no
command. -/
def askingAround : List Event :=
  visit ++
  [.packet 0 (.json "\x7b\"Type\":\"JoinRoom\",\"RoomId\":\"arena\"\x7d"),
    .packet 0 (.json "\x7b\"Type\":\"LeaveRoom\",\"RoomId\":\"attic\"\x7d"),
    .packet 0 (.json "hello")] ++
  List.replicate 11 (.work 0 0) ++ List.replicate 2 (.work 1 0) ++ List.replicate 2 (.work 2 0)

/-- Whatever the client is told of this is taken in. -/
theorem accepted_of_course_askingAround : ∃ (w : World) (client : Client),
    (opened ["lobby"]).afterAll? askingAround = some w ∧ w.client? 0 = some client ∧
      client.sent.length = 5 ∧ ∀ o ∈ client.sent, o.IsAccepted := by
  have short : ∀ name ∈ ["lobby"], Chat.IsShort name := by decide
  have bring : ∀ e ∈ askingAround, e.IsModest := by decide +kernel
  have possible : ((opened ["lobby"]).afterAll? askingAround).any (fun w =>
      (w.client? 0).any fun client =>
        client.sessionId < UInt64.size && client.sent.length = 5) = true := by
    decide +kernel
  obtain ⟨w, course, known⟩ := (Option.any_eq_true ..).1 possible
  obtain ⟨client, found, facts⟩ := (Option.any_eq_true ..).1 known
  simp only [Bool.and_eq_true, decide_eq_true_eq] at facts
  exact ⟨w, client, course, found, facts.2,
    accepted_of_course ["lobby"] askingAround w short bring course 0 client found facts.1⟩

/-! ## Without headroom -/

/-- The session of a client takes in that it cannot leave a room that there is not. -/
theorem perform_of_unknown (q : Jobs.QueueRef) (found : w.client? c = some client)
    (reached : unreachable? client = none) {room : String}
    (unknown : w.findRoom? client.hall room = none) :
    perform q (.session c (.command (Chat.Command.leaveRoom room).json)) w =
      (w.modifyClient c fun client => { client with sent := client.sent ++
        [.response (.error (Chat.Error.roomNotFound room).message)] }).failWith
          (Chat.Error.roomNotFound room).message := by
  rw [perform_session q _ found, performSessionTask, takeCommand, Chat.Command.decode_json]
  simp only [unknown, Option.isNone_none, if_true]
  rw [reject, trySend, send, found]
  simp only [reached]

/-- A client is connected, and a drain of its queue looks for jobs and finds none. -/
structure Rests (w : World) (c : ClientRef) (client : Client) : Prop where
  found : w.client? c = some client
  greeted : client.arrival = .greeted
  connected : client.link = .connected
  idle : (w.pool.queue? client.queue).any fun queue =>
    queue.waiting.isEmpty && queue.running && queue.drains = [.fetching]

/-- What arrives at a client that rests is taken up at once. -/
theorem Rests.takes (rests : Rests w c client) (text : String) :
    ∃ v, w.afterAll? [.packet c (.json text), .work client.queue 0] = some v ∧
      Jobs.Realm.phase? v client.queue 0 = some (.executing (.session c (.command text))) ∧
      v.state = w.state := by
  obtain ⟨queue, known, idle⟩ := (Option.any_eq_true ..).1 rests.idle
  simp only [Bool.and_eq_true, List.isEmpty_iff, decide_eq_true_eq] at idle
  obtain ⟨⟨waiting, running⟩, drains⟩ := idle
  let job := Job.session c (.command text)
  have pushed : (queue.push job).drains = [.fetching] ∧ (queue.push job).waiting = [job] := by
    simp [Jobs.Queue.push, Jobs.Queue.count, Jobs.Queue.enqueue, Jobs.Queue.wake, waiting, running,
      drains]
  let u : World := w.push client.queue job
  have arrived : w.after? (.packet c (.json text)) = some u := by
    simp [after?, dispatch, pushToSession, rests.found, rests.greeted, rests.connected, u, job]
  have there : u.pool.queue? client.queue = some (queue.push job) := by
    rw [show u.pool = w.pool.modify client.queue (·.push job) from rfl, Jobs.Pool.queue?_modify,
      if_pos rfl, known]
    rfl
  have looks : Jobs.Realm.phase? u client.queue 0 = some .fetching := by
    rw [Jobs.Realm.phase?, there, Option.bind_some, pushed.1]
    rfl
  have fetched : World.after? u (.work client.queue 0) =
      some (u.updatePool (·.modify client.queue (·.fetch 0))) := by
    rw [after?, Jobs.Realm.advance?, looks]
  refine ⟨u.updatePool (·.modify client.queue (·.fetch 0)), ?_, ?_, rfl⟩
  · have first : w.afterAll? ([] ++ [.packet c (.json text)]) = some u :=
      afterAll?_concat_eq_some.2 ⟨w, rfl, arrived⟩
    exact afterAll?_concat_eq_some.2 ⟨u, first, fetched⟩
  · rw [Jobs.Realm.phase?, Jobs.Realm.updatePool, Jobs.Pool.queue?_modify, if_pos rfl, there,
      Option.map_some, Option.bind_some, Jobs.Queue.fetch, pushed.2]
    simp only [Jobs.Queue.setPhase, pushed.1]
    rfl

/-- A client that asks to leave a room that there is not is told so, by the name of the room. -/
theorem Rests.refuses (rests : Rests w c client) {room : String}
    (unknown : w.findRoom? client.hall room = none) :
    ∃ v, w.afterAll? [.packet c (.json (Chat.Command.leaveRoom room).json),
        .work client.queue 0, .work client.queue 0] = some v ∧
      v.client? c = some { client with sent := client.sent ++
        [.response (.error (Chat.Error.roomNotFound room).message)] } := by
  obtain ⟨u, taken, phase, state⟩ := rests.takes (Chat.Command.leaveRoom room).json
  have found : u.client? c = some client := by
    rw [client?, state]
    exact rests.found
  have reached : unreachable? client = none := by
    simp [unreachable?, rests.greeted, rests.connected]
  rw [← findRoom?_of_state state] at unknown
  have performed := perform_of_unknown client.queue found reached unknown
  obtain ⟨v, after⟩ : ∃ v, u.after? (.work client.queue 0) = some v := by
    rw [after?, Jobs.Realm.advance?, phase]
    simp only [performed]
    exact ⟨_, rfl⟩
  refine ⟨v, ?_, ?_⟩
  · exact afterAll?_concat_eq_some.2 ⟨u, taken, after⟩
  · obtain ⟨state, -⟩ := eq_of_finished phase performed after
    rw [client?, state, ← client?, client?_modifyClient, if_pos rfl, found]
    rfl

/-- After a visit there is no room but the default one, and nothing left to do for the client. -/
theorem exists_rests_of_visit : ∃ w client, (opened ["lobby"]).afterAll? visit = some w ∧
    Rests w 0 client ∧ client.queue = 0 ∧
      ∀ name, name ≠ "lobby" → w.findRoom? client.hall name = none := by
  have possible : ((opened ["lobby"]).afterAll? visit).any (fun w =>
      ((w.hall? 0).map fun hall => hall.rooms.keys) = some ["lobby"] &&
      (w.client? 0).any fun client => client.hall = 0 && client.queue = 0 &&
        client.arrival = .greeted && client.link = .connected &&
        (w.pool.queue? client.queue).any fun queue =>
          queue.waiting.isEmpty && queue.running && queue.drains = [.fetching]) = true := by
    decide +kernel
  obtain ⟨w, course, known⟩ := (Option.any_eq_true ..).1 possible
  obtain ⟨rooms, known⟩ := (Bool.and_eq_true ..).mp known
  obtain ⟨client, found, facts⟩ := (Option.any_eq_true ..).1 known
  obtain ⟨facts, idle⟩ := (Bool.and_eq_true ..).mp facts
  simp only [Bool.and_eq_true, decide_eq_true_eq] at rooms facts
  obtain ⟨⟨⟨hall, queue⟩, greeted⟩, connected⟩ := facts
  refine ⟨w, client, course, ⟨found, greeted, connected, idle⟩, queue, ?_⟩
  intro name other
  obtain ⟨only, known, keys⟩ := Option.map_eq_some_iff.1 rooms
  refine Option.eq_none_iff_forall_ne_some.2 fun r there => ?_
  rw [findRoom?, hall, known, Option.bind_some, ← Table.mem_entries_iff] at there
  have listed : name ∈ only.rooms.keys := List.mem_map_of_mem there
  rw [keys, List.mem_singleton] at listed
  exact other listed

/-- After a visit, a client that asks to leave a room whose name nearly fills the frame loses its
connection by the answer. -/
theorem exists_refused_of_long {room : String} (long : 8125 < weight room)
    (fits : weight room ≤ 8154) :
    Chat.Accepted (Wire.Frame.encodeText (Chat.Command.leaveRoom room).json)
        (.json (Chat.Command.leaveRoom room).json) ∧
      ∃ v client o, (opened ["lobby"]).afterAll?
          (visit ++ [.packet 0 (.json (Chat.Command.leaveRoom room).json), .work 0 0, .work 0 0]) =
            some v ∧
        v.client? 0 = some client ∧ o ∈ client.sent ∧ o.frame.length = weight room + 67 ∧
        Chat.Refused o.frame := by
  obtain ⟨w, client, course, rests, queue, unknown⟩ := exists_rests_of_visit
  have other : room ≠ "lobby" := by
    rintro rfl
    exact absurd long (by decide)
  obtain ⟨v, after, told⟩ := rests.refuses (unknown room other)
  rw [queue] at after
  have length := Chat.Command.length_leaveRoom room
  have request := Chat.accepted_json (length ▸ show weight room + 38 ≤ 8192 by omega)
  refine ⟨request, v, _, _, ?_, told, List.mem_append_right _ List.mem_cons_self,
    Chat.length_roomNotFound room,
    Chat.refused_roomNotFound long (show weight room + 67 < 4294967296 by omega)⟩
  rw [afterAll?_append, course]
  exact after

/-- A name of so many letters. -/
def longName (n : Nat) : String := String.ofList (List.replicate n 'a')

theorem weight_longName (n : Nat) : weight (longName n) = n := by
  have light : ∀ c ∈ List.replicate n 'a', charWeight c = 1 := fun c mem => by
    rw [List.eq_of_mem_replicate mem]
    decide
  rw [longName, weight_ofList, sum_charWeight_eq_length light, List.length_replicate]

/-- A room with a name of 8130 letters is one to ask for, and none to be told of. -/
theorem exists_refused_of_8130_letters :
    Chat.Accepted (Wire.Frame.encodeText (Chat.Command.leaveRoom (longName 8130)).json)
        (.json (Chat.Command.leaveRoom (longName 8130)).json) ∧
      ∃ v client o, (opened ["lobby"]).afterAll?
          (visit ++ [.packet 0 (.json (Chat.Command.leaveRoom (longName 8130)).json), .work 0 0,
            .work 0 0]) = some v ∧
        v.client? 0 = some client ∧ o ∈ client.sent ∧ o.frame.length = 8197 ∧
        Chat.Refused o.frame := by
  have weighs := weight_longName 8130
  have refused := @exists_refused_of_long (longName 8130) (by omega) (by omega)
  rw [weighs] at refused
  exact refused

end ChatHall.Server.World
