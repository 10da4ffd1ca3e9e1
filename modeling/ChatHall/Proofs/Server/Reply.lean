/-
# Every command has its reply

A command is answered once, at the last stage of its job, and a binary packet is not. The
reply tells whether the job failed, and a job that fails does so at its first stage, before
it has touched a room. Between the stages of a job other threads go on, but the job keeps
what it has found out: nobody else moves its client, and a room keeps its name. The room in
which a client is, is registered, so nobody is told that it does not exist.
-/

import ChatHall.Proofs.Server.Audience
import ChatHall.Proofs.Server.Figures
import ChatHall.Proofs.Server.Title

namespace ChatHall.Server

open ChatHall.Text

/-- The number of stages that are left to a job that goes on like this, at most. -/
def Next.stages : Next → Nat
  | enter .. => 3
  | answer _ | retire => 1

def SessionTask.stages : SessionTask → Nat
  | leaving n => n.stages + 2
  | tidying _ n => n.stages + 1
  | going n => n.stages
  | arriving .. => 2
  | welcome | packet .. | command _ | farewell => 6

/-- What a job that goes on like this will answer. -/
inductive Next.Promises : Next → Chat.Response → Prop
  | joined (room : String) : Promises (.enter room true) (.joined true room)
  | left (success : Bool) (room : String) :
      Promises (.answer (.left success room)) (.left success room)

namespace World

variable {w v u : World} {past : List (RoomRef × RoomTask)} {q : Jobs.QueueRef} {i : Nat}
variable {c : ClientRef} {client : Client} {r : RoomRef} {task t : SessionTask}

/-! ## The room of a client -/

theorem Tended.client_of_phase (h : Tended past w)
    (phase : Jobs.Realm.phase? w q i = some (.executing (.session c task))) :
    ∃ client, w.client? c = some client ∧ client.queue = q := by
  obtain ⟨queue, found, alive⟩ := phase?_eq_some.1 phase
  exact client_of_executing h.agreed.inOrder.furnished.serial h.placed found alive

/-- A room is not vacant as long as somebody is in it or has asked to enter. -/
theorem Agreed.isVacant_eq_false_of_inside (h : Agreed past w) (found : w.client? c = some client)
    {room : Room} (there : w.room? r = some room) (hall : room.hall = client.hall)
    (inside : lastMove? c client.sessionId (history past w r) = some (.enter c)) :
    room.isVacant = false := by
  rw [history, lastMove?_append] at inside
  cases asked : lastMove? c client.sessionId (w.queued r) with
  | some move =>
      rw [asked, Option.some_or] at inside
      exact h.inOrder.orderly.isVacant_eq_false_of_queued there
        (enter_mem_of_lastMove? (asked.trans inside))
  | none =>
      rw [asked, Option.none_or] at inside
      have member := h.find?_members found there hall
      rw [if_pos inside] at member
      exact isVacant_eq_false_of_member (h.inOrder.orderly.memberCount r room there)
        (Option.isSome_of_eq_some member)

/-- Before the first stage of a job its client is, if in any room, in a registered one of its
hall. -/
theorem Tended.room_of_seat (h : Tended past w)
    (phase : Jobs.Realm.phase? w q i = some (.executing (.session c task)))
    (nowhere : task.destination? = none) (found : w.client? c = some client)
    (seated : w.seat? c = some r) :
    ∃ room, w.room? r = some room ∧ w.findRoom? client.hall room.name = some r := by
  obtain ⟨queue, known, alive⟩ := phase?_eq_some.1 phase
  have busy := performing_of_alive h.agreed.inOrder.furnished.serial known alive
  obtain ⟨seats, sits, attends⟩ := h.agreed.seats
  have standing := standing?_of_client found
  have here := (attends.seat_of_busy standing busy nowhere).trans seated
  obtain ⟨s, room, hs, there, hall⟩ := sits.seat c r here
  obtain rfl := Option.some.inj (hs.symm.trans standing)
  refine ⟨room, there, ?_⟩
  have inHall : w.InHall r client.hall := fun other hother =>
    Option.some.inj (hother.symm.trans there) ▸ hall
  have inside : lastMove? c client.sessionId (history past w r) = some (.enter c) :=
    (sits.lastMove c _ r standing inHall).2 here
  have occupied := h.agreed.inOrder.orderly.occupied r room there
  rw [show room.hall = client.hall from hall] at occupied
  exact occupied (h.agreed.isVacant_eq_false_of_inside found there hall inside)

/-- The name of the room in which a client is, by its own account. -/
def whereabouts? (w : World) (c : ClientRef) : Option String :=
  (w.currentRoom? c).map fun here => here.2.name

theorem whereabouts?_eq (w : World) (c : ClientRef) :
    w.whereabouts? c = (w.seat? c).bind fun r => (w.room? r).map Room.name := by
  rw [whereabouts?, currentRoom?, seat?]
  cases w.client? c with
  | none => rfl
  | some client =>
      cases seated : client.room with
      | none => simp [seated]
      | some r => cases there : w.room? r <;> simp [seated, there]

theorem name_of_extends (ext : Extends w v) {name : String}
    (named : (w.room? r).map Room.name = some name) : (v.room? r).map Room.name = some name := by
  obtain ⟨room, there, rfl⟩ := Option.map_eq_some_iff.1 named
  obtain ⟨after, hafter, -, same, -⟩ := ext.room r room there
  rw [hafter, Option.map_some, same]

/-- Whoever is not moved stays in a room of that name. -/
theorem whereabouts?_of_extends (ext : Extends w v) (seat : v.seat? c = w.seat? c) {name : String}
    (here : w.whereabouts? c = some name) : v.whereabouts? c = some name := by
  rw [whereabouts?_eq] at here ⊢
  obtain ⟨r, seated, named⟩ := Option.bind_eq_some_iff.1 here
  rw [seat, seated]
  exact name_of_extends ext named

/-- Before the first stage of a job its client is in a registered room, if in any. -/
theorem Tended.findRoom?_of_whereabouts? (h : Tended past w)
    (phase : Jobs.Realm.phase? w q i = some (.executing (.session c task)))
    (nowhere : task.destination? = none) (found : w.client? c = some client) {name : String}
    (here : w.whereabouts? c = some name) : (w.findRoom? client.hall name).isSome := by
  rw [whereabouts?_eq] at here
  obtain ⟨r, seated, named⟩ := Option.bind_eq_some_iff.1 here
  obtain ⟨room, there, registered⟩ := h.room_of_seat phase nowhere found seated
  rw [there] at named
  obtain rfl := Option.some.inj named
  exact Option.isSome_of_eq_some registered

/-- Whoever waits for the first stage of a job is, unless moved, where it was. -/
theorem Tended.whereabouts?_of_seat (h : Tended past w)
    (phase : Jobs.Realm.phase? w q i = some (.executing (.session c task)))
    (nowhere : task.destination? = none) (ext : Extends w v) (seat : v.seat? c = w.seat? c) :
    v.whereabouts? c = w.whereabouts? c := by
  rw [whereabouts?_eq, whereabouts?_eq, seat]
  cases seated : w.seat? c with
  | none => rfl
  | some r =>
      obtain ⟨client, found, -⟩ := h.client_of_phase phase
      obtain ⟨room, there, -⟩ := h.room_of_seat phase nowhere found seated
      have named : (w.room? r).map Room.name = some room.name := congrArg _ there
      exact (name_of_extends ext named).trans named.symm

/-! ## What a packet is answered -/

/-- Why a command of a client in the room `here`, if in any, is refused. -/
inductive Refusal (w : World) (s : Standing) (here : Option String) (text : String) :
    Chat.Error → Prop
  | malformed (e : Chat.Error) (undecoded : Chat.Command.decode text = .error e) :
      Refusal w s here text e
  | unknown (room : String) (decoded : Chat.Command.decode text = .ok (.leaveRoom room))
      (elsewhere : here ≠ some room) (absent : w.findRoom? s.hall room = none) :
      Refusal w s here text (.roomNotFound room)
  | unfit (message : String) (e : Chat.Error)
      (decoded : Chat.Command.decode text = .ok (.sendMessage message))
      (invalid : Chat.validateMessage message = .error e) : Refusal w s here text e
  | outside (message : String) (decoded : Chat.Command.decode text = .ok (.sendMessage message))
      (nowhere : here = none) : Refusal w s here text (.notInRoom s.sessionId)

/-- What a command about rooms that is obeyed is answered. -/
inductive Obeyed (here : Option String) : Wire.Packet → Chat.Response → Prop
  | joined (text room : String) (decoded : Chat.Command.decode text = .ok (.joinRoom room)) :
      Obeyed here (.json text) (.joined true room)
  | left (text room : String) (decoded : Chat.Command.decode text = .ok (.leaveRoom room)) :
      Obeyed here (.json text) (.left (here = some room) room)

/-- What a packet of a client in the room `here`, if in any, is answered, and whether its job
fails. -/
inductive Told (w : World) (s : Standing) (here : Option String) :
    Wire.Packet → Option Chat.Response → (failed : Bool) → Prop
  | obeyed (p : Wire.Packet) (reply : Chat.Response) (obeyed : Obeyed here p reply) :
      Told w s here p (some reply) false
  | passed (text message : String)
      (decoded : Chat.Command.decode text = .ok (.sendMessage message))
      (valid : Chat.validateMessage message = .ok ()) (inside : here.isSome) :
      Told w s here (.json text) none false
  | refused (text : String) (e : Chat.Error) (why : Refusal w s here text e) :
      Told w s here (.json text) (some (.error e.message)) true
  | binary (id : UInt16) (payload : Bytes) :
      Told w s here (.binary id payload) none
        (!((utterance? (.binary id payload)).isSome && here.isSome))

/-! ## Sending a reply -/

theorem replies_congr (same : v.client? c = w.client? c) : v.replies c = w.replies c := by
  rw [replies, sent, same, replies, sent]

theorem replies_modifyClient (w : World) (c : ClientRef) {f : Client → Client}
    (same : ∀ client, (f client).sent = client.sent) :
    (w.modifyClient c f).replies c = w.replies c := by
  rw [replies, sent, client?_modifyClient, if_pos rfl, replies, sent]
  cases w.client? c with
  | none => rfl
  | some client => exact congrArg _ (same client)

theorem replies_trySend (w : World) (c : ClientRef) (response : Chat.Response) :
    (w.trySend c (.response response)).replies c =
      w.replies c ++ if w.reaches c then [response] else [] := by
  rw [replies, sent_trySend, List.filterMap_append, replies]
  by_cases reached : w.reaches c = true
  · rw [if_pos ⟨rfl, reached⟩, if_pos reached]
    rfl
  · rw [if_neg fun both => reached both.2, if_neg reached]
    rfl

/-- An answer that cannot be sent fails the job; there is no other reason. -/
theorem answer_eq (w : World) (c : ClientRef) (response : Chat.Response) :
    ∃ outcome, w.answer c response = (w.trySend c (.response response), .finished outcome) ∧
      (w.reaches c = true → outcome.isOk = true) := by
  rw [answer, trySend]
  cases sent : w.send c (.response response) with
  | ok v => exact ⟨.ok (), rfl, fun _ => rfl⟩
  | error e =>
      refine ⟨.error (.error e.message), rfl, fun reached => ?_⟩
      rw [reaches] at reached
      obtain ⟨g, known, connected⟩ := (Option.any_eq_true ..).1 reached
      obtain ⟨client, found, rfl⟩ := Option.map_eq_some_iff.1 known
      rw [send, found] at sent
      simp only [unreachable?_eq_none.2 connected] at sent
      contradiction

/-! ## Stages -/

/-- Nothing has come yet of a job, which is at this stage. -/
structure Paused (w : World) (q : Jobs.QueueRef) (i : Nat) (c : ClientRef) (v : World)
    (task : SessionTask) : Prop where
  phase : Jobs.Realm.phase? v q i = some (.executing (.session c task))
  replies : v.replies c = w.replies c
  finished : v.finished q = w.finished q
  failures : v.failures q = w.failures q

theorem Paused.trans (first : Paused w q i c v task) (second : Paused v q i c u t) :
    Paused w q i c u t where
  phase := second.phase
  replies := second.replies.trans first.replies
  finished := second.finished.trans first.finished
  failures := second.failures.trans first.failures

theorem perform_session (q : Jobs.QueueRef) (task : SessionTask)
    (found : w.client? c = some client) :
    perform q (.session c task) w = w.performSessionTask c client task := by
  simp only [perform, found]

/-- A stage that another one follows. -/
theorem Tended.goesOn (h : Tended past w)
    (phase : Jobs.Realm.phase? w q i = some (.executing (.session c task)))
    (found : w.client? c = some client)
    (performed : w.performSessionTask c client task = u.goOn c t)
    (replies : u.replies c = w.replies c) (after : w.after? (.work q i) = some v) :
    v.state = u.state ∧ Paused w q i c v t := by
  have performs := (perform_session q task found).trans performed
  have spares := spares_performSessionTask (q := q) w c client task
  have furnished := h.agreed.inOrder.furnished
  obtain ⟨deeds, seat, next, staged⟩ := staged_performSessionTask furnished found task
  have later := (furnished.moves staged.moves).serial
  rw [performed] at spares later
  have state : v.state = u.state := congrArg (·.state) (eq_of_continues phase performs after).symm
  obtain ⟨finished, failures⟩ := spares.goOn phase performs after
  refine ⟨state, spares.phase?_goOn furnished.serial later phase performs after,
    ?_, finished, failures⟩
  rw [← replies]
  exact replies_congr (by rw [client?, state, client?])

/-- The last stage of a job. -/
theorem ends_of_work (phase : Jobs.Realm.phase? w q i = some (.executing (.session c task)))
    (found : w.client? c = some client) {outcome : Except Jobs.Failure Unit}
    (performed : w.performSessionTask c client task = (u, .finished outcome))
    (after : w.after? (.work q i) = some v) :
    v.state = u.state ∧ v.finished q = w.finished q + 1 ∧
      v.failures q = w.failures q + (!outcome.isOk).toNat := by
  have performs := (perform_session q task found).trans performed
  have spares := spares_performSessionTask (q := q) w c client task
  rw [performed] at spares
  exact ⟨(eq_of_finished phase performs after).1, spares.finish phase performs after⟩

/-- A job of a session is never held up. -/
theorem Tended.exists_after (h : Tended past w)
    (phase : Jobs.Realm.phase? w q i = some (.executing (.session c task))) :
    ∃ v, w.after? (.work q i) = some v := by
  obtain ⟨client, found, -⟩ := h.client_of_phase phase
  obtain ⟨next, -, follows⟩ := errand_performSessionTask w c client task
  have performs := perform_session q task found
  cases performed : w.performSessionTask c client task with
  | mk u progress =>
      rw [performed] at performs follows
      change ∃ v, Jobs.Realm.advance? perform w q i = some v
      rw [Jobs.Realm.advance?, phase]
      simp only [performs]
      cases next with
      | some t =>
          obtain rfl := follows
          exact ⟨_, rfl⟩
      | none =>
          obtain ⟨outcome, rfl⟩ := follows
          cases outcome <;> exact ⟨_, rfl⟩

/-! ## The way to an answer -/

/-- A job is on its way to an answer: to that of an entrance it comes by entering. -/
inductive Bound (w : World) (c : ClientRef) : SessionTask → Chat.Response → Prop
  | leaving {n : Next} {reply : Chat.Response} (promises : n.Promises reply) :
      Bound w c (.leaving n) reply
  | tidying (r : RoomRef) {n : Next} {reply : Chat.Response} (promises : n.Promises reply) :
      Bound w c (.tidying r n) reply
  | going {n : Next} {reply : Chat.Response} (promises : n.Promises reply) :
      Bound w c (.going n) reply
  | arriving (r : RoomRef) (name : String) (named : (w.room? r).map Room.name = some name) :
      Bound w c (.arriving r name true) (.joined true name)
  | inside (name : String) (here : w.whereabouts? c = some name) :
      Bound w c (.going (.answer (.joined true name))) (.joined true name)

theorem Bound.extends {reply : Chat.Response} (h : Bound w c task reply) (ext : Extends w v)
    (seat : v.seat? c = w.seat? c) : Bound v c task reply := by
  cases h with
  | leaving promises => exact .leaving promises
  | tidying r promises => exact .tidying r promises
  | going promises => exact .going promises
  | arriving r name named => exact .arriving r name (name_of_extends ext named)
  | inside name here => exact .inside name (whereabouts?_of_extends ext seat here)

theorem Tended.extends (h : Tended past w) {e : Event} (after : w.after? e = some v) :
    Extends w v := by
  obtain ⟨deeds, change⟩ := change_of_after? h.agreed.inOrder.furnished after
  exact change.moves.extends

theorem seat?_of_state (state : v.state = u.state) (c : ClientRef) : v.seat? c = u.seat? c := by
  rw [seat?, client?, state, seat?, client?]

theorem findRoom?_of_state (state : v.state = u.state) (h : HallRef) (name : String) :
    v.findRoom? h name = u.findRoom? h name := by
  rw [findRoom?, hall?, state, findRoom?, hall?]

/-- A job comes to its end with this reply, if with any. -/
structure Closes (w : World) (q : Jobs.QueueRef) (c : ClientRef) (v : World)
    (reply : Option Chat.Response) (failed : Bool) : Prop where
  finished : v.finished q = w.finished q + 1
  replies : w.reaches c = true → v.replies c = w.replies c ++ reply.toList
  failures : w.reaches c = true → v.failures q = w.failures q + failed.toNat
  inside : ∀ name, reply = some (.joined true name) → v.whereabouts? c = some name

/-- The last stage of a job that answers: the client gets the answer if it can be reached. -/
theorem Tended.answers (h : Tended past w) {reply : Chat.Response}
    (phase : Jobs.Realm.phase? w q i = some (.executing (.session c (.going (.answer reply)))))
    (after : w.after? (.work q i) = some v) :
    v.finished q = w.finished q + 1 ∧ v.seat? c = w.seat? c ∧
      (w.reaches c = true →
        v.replies c = w.replies c ++ [reply] ∧ v.failures q = w.failures q) := by
  obtain ⟨client, found, -⟩ := h.client_of_phase phase
  obtain ⟨outcome, answered, succeeds⟩ := answer_eq w c reply
  obtain ⟨state, finished, failures⟩ := ends_of_work phase found answered after
  refine ⟨finished, (seat?_of_state state c).trans ((calm_trySend w c _).seat? c),
    fun reached => ⟨?_, ?_⟩⟩
  · have sent := replies_trySend w c reply
    rw [if_pos reached] at sent
    exact (replies_congr (by rw [client?, state, client?])).trans sent
  · rw [failures, succeeds reached]
    rfl

/-- A stage has brought a job nearer to its answer. -/
def Nears (w : World) (q : Jobs.QueueRef) (i : Nat) (c : ClientRef) (task : SessionTask)
    (reply : Chat.Response) (v : World) : Prop :=
  ∃ t, Bound v c t reply ∧ t.stages < task.stages ∧ Paused w q i c v t

section Nears

variable {reply : Chat.Response} {n : Next} {name : String} (h : Tended past w)
include h

/-- A client leaves its seat, if it has one. -/
theorem Tended.nears_of_leaving (promises : n.Promises reply)
    (phase : Jobs.Realm.phase? w q i = some (.executing (.session c (.leaving n))))
    (after : w.after? (.work q i) = some v) : Nears w q i c (.leaving n) reply v := by
  obtain ⟨client, found, -⟩ := h.client_of_phase phase
  cases seated : client.room with
  | none =>
      have performed : w.performSessionTask c client (.leaving n) = w.goOn c (.going n) := by
        rw [performSessionTask, seated]
      obtain ⟨-, paused⟩ := h.goesOn phase found performed rfl after
      exact ⟨_, .going promises, Nat.lt_add_of_pos_right Nat.two_pos, paused⟩
  | some r =>
      let u := w.modifyClient c fun client => { client with room := none }
      have performed : w.performSessionTask c client (.leaving n) =
          (u.pushLeave r client.sessionId).goOn c (.tidying r n) := by
        rw [performSessionTask, seated]
      have there := client?_modifyClient w c c fun client => { client with room := none }
      rw [if_pos rfl, found] at there
      have pushed := spares_pushToRoom (q := q) (d := none) u r (.leave client.sessionId)
      have replies := (pushed.replies there (Option.some_ne_none c)).trans
        (replies_modifyClient w c fun _ => rfl)
      obtain ⟨-, paused⟩ := h.goesOn phase found performed replies after
      exact ⟨_, .tidying r promises, Nat.lt_succ_self _, paused⟩

/-- The room that a client enters has the name that the client has asked for. -/
theorem Tended.nears_of_entering
    (phase : Jobs.Realm.phase? w q i = some (.executing (.session c (.going (.enter name true)))))
    (after : w.after? (.work q i) = some v) :
    Nears w q i c (.going (.enter name true)) (.joined true name) v := by
  obtain ⟨client, found, -⟩ := h.client_of_phase phase
  have furnished := h.agreed.inOrder.furnished
  have replies := (spares_enterRoom (q := q) w client.hall name c).replies found
    (Option.some_ne_none c)
  have performed : w.performSessionTask c client (.going (.enter name true)) =
      (w.enterRoom client.hall name c).1.goOn c
        (.arriving (w.enterRoom client.hall name c).2 name true) := rfl
  obtain ⟨state, paused⟩ := h.goesOn phase found performed replies after
  obtain ⟨register, known, -⟩ := furnished.hallOfClient c _ (standing?_of_client found)
  have entered := findRoom?_enterRoom (Option.isSome_of_eq_some known) name c
  rw [show client.standing.hall = client.hall from rfl, ← findRoom?_of_state state] at entered
  have later := (h.after rfl after).agreed.inOrder.furnished
  obtain ⟨room, there, -, named⟩ := later.registered client.hall name _ entered
  refine ⟨_, .arriving _ name ?_, Nat.lt_succ_self _, paused⟩
  rw [there, Option.map_some, named]

/-- A client takes its seat in the room that it has entered. -/
theorem Tended.nears_of_arriving (named : (w.room? r).map Room.name = some name)
    (phase : Jobs.Realm.phase? w q i = some (.executing (.session c (.arriving r name true))))
    (after : w.after? (.work q i) = some v) :
    Nears w q i c (.arriving r name true) (.joined true name) v := by
  obtain ⟨client, found, -⟩ := h.client_of_phase phase
  have moved := replies_modifyClient w c (f := fun client => { client with room := some r })
    fun _ => rfl
  obtain ⟨state, paused⟩ := h.goesOn phase found rfl moved after
  refine ⟨_, .inside name ?_, Nat.lt_succ_self _, paused⟩
  have seat : v.seat? c = some r := by
    rw [seat?_of_state state, seat?_modifyClient, if_pos rfl, found]
    rfl
  rw [whereabouts?_eq, seat]
  exact name_of_extends (h.extends after) named

/-- A stage of a job on its way to an answer brings it nearer, or is the answer. -/
theorem Bound.step (bound : Bound w c task reply)
    (phase : Jobs.Realm.phase? w q i = some (.executing (.session c task)))
    (after : w.after? (.work q i) = some v) :
    Nears w q i c task reply v ∨ Closes w q c v (some reply) false := by
  cases bound with
  | leaving promises => exact .inl (h.nears_of_leaving promises phase after)
  | tidying r promises =>
      obtain ⟨client, found, -⟩ := h.client_of_phase phase
      have replies := (spares_pushTidy (q := q) w r).replies found (Option.some_ne_none c)
      obtain ⟨-, paused⟩ := h.goesOn phase found rfl replies after
      exact .inl ⟨_, .going promises, Nat.lt_succ_self _, paused⟩
  | going promises =>
      cases promises with
      | joined name => exact .inl (h.nears_of_entering phase after)
      | left success name =>
          obtain ⟨finished, -, sends⟩ := h.answers phase after
          exact .inr ⟨finished, fun reached => (sends reached).1,
            fun reached => (sends reached).2, nofun⟩
  | arriving r name named => exact .inl (h.nears_of_arriving named phase after)
  | inside name here =>
      obtain ⟨finished, seat, sends⟩ := h.answers phase after
      refine .inr ⟨finished, fun reached => (sends reached).1, fun reached => (sends reached).2,
        fun _ same => ?_⟩
      cases same
      exact whereabouts?_of_extends (h.extends after) seat here

end Nears

/-! ## The first stage -/

/-- The current room of a client, the rooms, their register and that of the queues, and the queues
of the rooms are exactly as they were. -/
structure Untouched (c : ClientRef) (w v : World) : Prop where
  seat? : v.seat? c = w.seat? c
  halls : v.state.halls = w.state.halls
  rooms : v.state.rooms = w.state.rooms
  names : v.pool.names = w.pool.names
  queues : ∀ r room, w.room? r = some room →
    v.pool.queue? room.queue = w.pool.queue? room.queue

/-- A refusal is told to the client, and does nothing else. -/
theorem trySend_eq (w : World) (c : ClientRef) (o : Outgoing) :
    (w.trySend c o).state.halls = w.state.halls ∧ (w.trySend c o).state.rooms = w.state.rooms ∧
      (w.trySend c o).pool = w.pool := by
  rw [trySend, send]
  cases w.client? c with
  | none => exact ⟨rfl, rfl, rfl⟩
  | some client =>
      dsimp only
      cases unreachable? client <;> exact ⟨rfl, rfl, rfl⟩

/-- No room works on the queue of a session. -/
theorem Titled.queue_ne (h : Titled w) (furnished : Furnished w) (found : w.client? c = some client)
    {room : Room} (there : w.room? r = some room) : client.queue ≠ room.queue := by
  intro same
  have own := furnished.queueOfClient c _ (standing?_of_client found)
  rw [show client.standing.queue = room.queue from same, h.room r room there] at own
  exact roomQueueName_ne _ _ (Option.some.inj own)

/-- A job that takes a packet up is over at its first stage. -/
def Settles (w : World) (q : Jobs.QueueRef) (c : ClientRef) (s : Standing) (p : Wire.Packet)
    (v : World) : Prop :=
  ∃ reply failed, Told w s (w.whereabouts? c) p reply failed ∧ Closes w q c v reply failed ∧
    (failed = true → Untouched c w v)

/-- A job that takes a packet up sets out for an answer, and is five stages from its end at most. -/
def SetsOut (w : World) (q : Jobs.QueueRef) (i : Nat) (c : ClientRef) (p : Wire.Packet)
    (v : World) : Prop :=
  ∃ t reply, Bound v c t reply ∧ Obeyed (w.whereabouts? c) p reply ∧ t.stages ≤ 5 ∧
    Paused w q i c v t

section FirstStage

variable {outcome : Except Jobs.Failure Unit}

/-- A job that is over at once is counted as its outcome says. -/
theorem closes_of_finished (phase : Jobs.Realm.phase? w q i = some (.executing (.session c task)))
    (found : w.client? c = some client)
    (performed : w.performSessionTask c client task = (u, .finished outcome))
    (after : w.after? (.work q i) = some v) {reply : Option Chat.Response}
    (replies : w.reaches c = true → u.replies c = w.replies c ++ reply.toList)
    (elsewhere : ∀ name, reply ≠ some (.joined true name)) :
    Closes w q c v reply (!outcome.isOk) := by
  obtain ⟨state, finished, failures⟩ := ends_of_work phase found performed after
  refine ⟨finished, fun reached => ?_, fun _ => failures,
    fun name same => absurd same (elsewhere name)⟩
  exact (replies_congr (by rw [client?, state, client?])).trans (replies reached)

/-- A job that is over at once leaves the rooms alone if its stage does. -/
theorem Tended.untouched (h : Tended past w) (titled : Titled w)
    (phase : Jobs.Realm.phase? w q i = some (.executing (.session c task)))
    (found : w.client? c = some client)
    (performed : w.performSessionTask c client task = (u, .finished outcome))
    (after : w.after? (.work q i) = some v) (halls : u.state.halls = w.state.halls)
    (rooms : u.state.rooms = w.state.rooms) (pool : u.pool = w.pool)
    (seat : u.seat? c = w.seat? c) : Untouched c w v := by
  obtain ⟨again, known, own⟩ := h.client_of_phase phase
  obtain rfl := Option.some.inj (found.symm.trans known)
  obtain ⟨state, counted⟩ := eq_of_finished phase ((perform_session q task found).trans performed)
    after
  refine ⟨(seat?_of_state state c).trans seat, ?_, ?_, ?_, fun r room there => ?_⟩
  · rw [state, halls]
  · rw [state, rooms]
  · rw [counted, ← pool]
    rfl
  · have other := titled.queue_ne h.agreed.inOrder.furnished found there
    have same := Jobs.Pool.queue?_modify (p := u.pool) q room.queue fun queue =>
      queue.finish i outcome
    rw [if_neg (own ▸ other)] at same
    rw [counted, ← pool]
    exact same

variable {e : Chat.Error}

/-- A refusal is told to the client, and changes nothing else. -/
theorem Tended.refuses (h : Tended past w) (titled : Titled w)
    (phase : Jobs.Realm.phase? w q i = some (.executing (.session c task)))
    (found : w.client? c = some client)
    (performed : w.performSessionTask c client task = w.reject c e)
    (after : w.after? (.work q i) = some v) :
    Closes w q c v (some (.error e.message)) true ∧ Untouched c w v := by
  obtain ⟨halls, rooms, pool⟩ := trySend_eq w c (.response (.error e.message))
  refine ⟨closes_of_finished phase found performed after (fun reached => ?_) nofun,
    h.untouched titled phase found performed after halls rooms pool ((calm_trySend w c _).seat? c)⟩
  have sent := replies_trySend w c (.error e.message)
  rwa [if_pos reached] at sent

/-- A message that is passed on is not answered. -/
theorem closes_of_passed (phase : Jobs.Realm.phase? w q i = some (.executing (.session c task)))
    (found : w.client? c = some client) {said : RoomTask}
    (performed : w.performSessionTask c client task = (w.pushToRoom r said).succeed)
    (after : w.after? (.work q i) = some v) : Closes w q c v none false := by
  refine closes_of_finished phase found performed after (fun _ => ?_) nofun
  have spares := spares_pushToRoom (q := q) (d := none) w r said
  have same := spares.replies found (Option.some_ne_none c)
  exact same.trans (List.append_nil _).symm

theorem whereabouts?_of_current {room : Room} (current : w.currentRoom? c = some (r, room)) :
    w.whereabouts? c = some room.name := by
  rw [whereabouts?, current]
  rfl

theorem whereabouts?_of_none (nowhere : w.currentRoom? c = none) : w.whereabouts? c = none := by
  rw [whereabouts?, nowhere]
  rfl

/-- A binary packet is over at its first stage, without a reply. -/
theorem Tended.takes_packet (h : Tended past w) (titled : Titled w) {id : UInt16} {payload : Bytes}
    (phase : Jobs.Realm.phase? w q i = some (.executing (.session c (.packet id payload))))
    (found : w.client? c = some client) (after : w.after? (.work q i) = some v) :
    Settles w q c client.standing (.binary id payload) v := by
  refine ⟨none, _, .binary id payload, ?_⟩
  rcases takePacket_cases w c client id payload with
    ⟨message, x, said, spoken, passed⟩ | ⟨e, failed, mute⟩
  · rcases chat_cases w c client message with ⟨r, room, valid, current, pushed⟩ | ⟨e, wrong, -⟩
    · obtain rfl := Except.ok.inj (pushed.symm.trans spoken)
      have speaks : utterance? (.binary id payload) = some message := by
        rw [utterance?, said, Option.filter_some, valid]
        rfl
      rw [speaks, whereabouts?_of_current current]
      exact ⟨closes_of_passed phase found passed after,
        fun fails => absurd fails Bool.false_ne_true⟩
    · rw [spoken] at wrong
      contradiction
  · have silent :
        ((utterance? (.binary id payload)).isSome && (w.whereabouts? c).isSome) = false := by
      rw [utterance?]
      cases said : messageOf? (.binary id payload) with
      | none => rfl
      | some message =>
          obtain ⟨e, wrong⟩ := mute message said
          rcases chat_cases w c client message with
            ⟨r, room, -, -, pushed⟩ | ⟨e, -, invalid | ⟨nowhere, -⟩⟩
          · rw [wrong] at pushed
            contradiction
          · rw [Option.filter_some, invalid]
            rfl
          · rw [whereabouts?_of_none nowhere]
            exact Bool.and_false _
    rw [silent]
    exact ⟨closes_of_finished phase found failed after (fun _ => (List.append_nil _).symm)
        fun _ => (Option.some_ne_none _).symm,
      fun _ => h.untouched titled phase found failed after rfl rfl rfl rfl⟩

section Command

variable {text : String} (h : Tended past w) (titled : Titled w)
variable (phase : Jobs.Realm.phase? w q i = some (.executing (.session c (.command text))))
variable (found : w.client? c = some client) (after : w.after? (.work q i) = some v)
include h titled phase found after

/-- A command that is refused is over at its first stage. -/
theorem Tended.settles_of_refusal (why : Refusal w client.standing (w.whereabouts? c) text e)
    (performed : w.performSessionTask c client (.command text) = w.reject c e) :
    Settles w q c client.standing (.json text) v := by
  obtain ⟨closes, untouched⟩ := h.refuses titled phase found performed after
  exact ⟨_, true, .refused text e why, closes, fun _ => untouched⟩

omit titled in
/-- Whoever asks to enter a room is on its way there, or in it already. -/
theorem Tended.takes_join {name : String}
    (decoded : Chat.Command.decode text = .ok (.joinRoom name)) :
    SetsOut w q i c (.json text) v := by
  have performed : w.performSessionTask c client (.command text) = w.join c name true := by
    rw [performSessionTask, takeCommand, decoded]
  have obeyed : Obeyed (w.whereabouts? c) (.json text) (.joined true name) :=
    .joined text name decoded
  have sets_out (away : w.join c name true = w.goOn c (.leaving (.enter name true))) :
      SetsOut w q i c (.json text) v := by
    obtain ⟨-, paused⟩ := h.goesOn phase found (performed.trans away) rfl after
    exact ⟨_, _, .leaving (.joined name), obeyed, Nat.le_refl _, paused⟩
  cases current : w.currentRoom? c with
  | none =>
      apply sets_out
      rw [join, current]
  | some here =>
      obtain ⟨r, room⟩ := here
      by_cases same : room.name = name
      · have announces : w.join c name true =
            (w.pushToRoom r .announce).goOn c (.going (.answer (.joined true name))) := by
          rw [join, current]
          exact if_pos same
        have spares := spares_pushToRoom (q := q) (d := none) w r .announce
        have stays := Option.some_ne_none c
        obtain ⟨state, paused⟩ := h.goesOn phase found (performed.trans announces)
          (spares.replies found stays) after
        have seat := (seat?_of_state state c).trans (spares.seat? found stays)
        have inside := (whereabouts?_of_current current).trans (congrArg some same)
        exact ⟨_, _, .inside name (whereabouts?_of_extends (h.extends after) seat inside),
          obeyed, Nat.le_of_ble_eq_true rfl, paused⟩
      · apply sets_out
        rw [join, current]
        exact if_neg same

/-- Whoever asks to leave a room is told whether that is done, unless there is no such room. -/
theorem Tended.takes_leave {name : String}
    (decoded : Chat.Command.decode text = .ok (.leaveRoom name)) :
    SetsOut w q i c (.json text) v ∨ Settles w q c client.standing (.json text) v := by
  cases listed : w.findRoom? client.hall name with
  | none =>
      -- The room in which the client is would be registered.
      have elsewhere : w.whereabouts? c ≠ some name := by
        intro here
        have registered := h.findRoom?_of_whereabouts? phase rfl found here
        rw [listed] at registered
        contradiction
      refine .inr (h.settles_of_refusal titled phase found after
        (.unknown name decoded elsewhere listed) ?_)
      rw [performSessionTask, takeCommand, decoded]
      simp only [listed, Option.isNone_none, if_true]
  | some r =>
      left
      have inside : (w.currentRoom? c).any (fun here => here.2.name = name) =
          decide (w.whereabouts? c = some name) := by
        rw [whereabouts?]
        cases w.currentRoom? c <;> simp
      have performed : w.performSessionTask c client (.command text) =
          w.goOn c (if w.whereabouts? c = some name then
            .leaving (.answer (.left (w.whereabouts? c = some name) name))
          else .going (.answer (.left (w.whereabouts? c = some name) name))) := by
        rw [performSessionTask, takeCommand, decoded]
        simp only [listed, Option.isNone_some, Bool.false_eq_true, if_false]
        rw [inside]
        simp only [decide_eq_true_eq]
      have promises := Next.Promises.left (w.whereabouts? c = some name) name
      obtain ⟨-, paused⟩ := h.goesOn phase found performed rfl after
      refine ⟨_, _, ?_, .left text name decoded, ?_, paused⟩
      · split
        · exact .leaving promises
        · exact .going promises
      · split <;> exact Nat.le_of_ble_eq_true rfl

/-- A message is passed on, or refused, at once. -/
theorem Tended.takes_message {message : String}
    (decoded : Chat.Command.decode text = .ok (.sendMessage message)) :
    Settles w q c client.standing (.json text) v := by
  rcases chat_cases w c client message with ⟨r, room, valid, current, passed⟩ | ⟨e, failed, why⟩
  · have inside := Option.isSome_of_eq_some (whereabouts?_of_current current)
    refine ⟨none, false, .passed text message decoded valid inside, ?_, nofun⟩
    have performed : w.performSessionTask c client (.command text) =
        (w.pushToRoom r (.say client.sessionId message)).succeed := by
      rw [performSessionTask, takeCommand, decoded]
      simp only [passed]
    exact closes_of_passed phase found performed after
  · have performed : w.performSessionTask c client (.command text) = w.reject c e := by
      rw [performSessionTask, takeCommand, decoded]
      simp only [failed]
    refine h.settles_of_refusal titled phase found after ?_ performed
    rcases why with invalid | ⟨nowhere, rfl⟩
    · exact .unfit message e decoded invalid
    · exact .outside message decoded (whereabouts?_of_none nowhere)

/-- A command is refused or passed on at its first stage, or sets out for its answer. -/
theorem Tended.takes_command :
    SetsOut w q i c (.json text) v ∨ Settles w q c client.standing (.json text) v := by
  cases decoded : Chat.Command.decode text with
  | error e =>
      refine .inr (h.settles_of_refusal titled phase found after (.malformed e decoded) ?_)
      rw [performSessionTask, takeCommand, decoded]
  | ok command =>
      cases command with
      | joinRoom name => exact .inl (h.takes_join phase found after decoded)
      | leaveRoom name => exact h.takes_leave titled phase found after decoded
      | sendMessage message => exact .inr (h.takes_message titled phase found after decoded)

end Command

/-- The first stage of a job that takes a packet up. -/
theorem Tended.takes (h : Tended past w) (titled : Titled w) {p : Wire.Packet}
    (packet : task.packet? = some p)
    (phase : Jobs.Realm.phase? w q i = some (.executing (.session c task)))
    (found : w.client? c = some client) (after : w.after? (.work q i) = some v) :
    SetsOut w q i c p v ∨ Settles w q c client.standing p v := by
  cases task with
  | packet id payload =>
      obtain rfl := Option.some.inj packet
      exact .inr (h.takes_packet titled phase found after)
  | command text =>
      obtain rfl := Option.some.inj packet
      exact h.takes_command titled phase found after
  | _ => contradiction

end FirstStage

end World

end ChatHall.Server
