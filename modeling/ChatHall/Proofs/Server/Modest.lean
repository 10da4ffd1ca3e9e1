/-
# Everything that is sent is taken in

A room has the name that somebody has asked for, and it comes back in every answer and
every update. Nobody limits it, nor what a complaint repeats: a command may fit into a
frame and its answer may not, and then whoever reads with the default limits gives up
the connection. As long as the names that halls are opened with and the commands that
arrive leave some headroom, so do all names and all complaints, wherever they are kept
or under way, and every frame that is sent is taken in whole.
-/

import ChatHall.Proofs.Chat.Accepted
import ChatHall.Proofs.Jobs.Contents
import ChatHall.Proofs.Server.Course
import ChatHall.Proofs.Server.Spare

namespace ChatHall.Server

open ChatHall.Text

/-- The packet of which a client is told, unless the bytes were given ready made. -/
def Outgoing.packet? : Outgoing → Option Wire.Packet
  | response r => some (.json r.json)
  | broadcast b => some (Chat.PacketKind.broadcast.packet b.json)
  | update u => some (Chat.PacketKind.roomUpdate.packet u.json)
  | bytes _ => none

/-- Whether a client with the default settings takes in what is sent as the packet that it is. -/
def Outgoing.IsAccepted (o : Outgoing) : Prop :=
  ∃ p, o.packet? = some p ∧ Chat.Accepted o.frame p

theorem Outgoing.isAccepted_response {r : Chat.Response}
    (accepted : Chat.Accepted r.frame (.json r.json)) : (Outgoing.response r).IsAccepted :=
  ⟨_, rfl, accepted⟩

/-- Whether whatever a job still keeps of a command can be told. -/
def Next.IsModest : Next → Prop
  | enter room _ => Chat.IsShort room
  | answer r => (Outgoing.response r).IsAccepted
  | retire => True

@[inherit_doc Next.IsModest]
def SessionTask.IsModest : SessionTask → Prop
  | command text => Chat.Command.IsModest text
  | leaving n | tidying _ n | going n => n.IsModest
  | arriving _ name _ => Chat.IsShort name
  | welcome | packet .. | farewell => True

@[inherit_doc Next.IsModest]
def RoomTask.IsModest : RoomTask → Prop
  | say _ message => Chat.validateMessage message = .ok ()
  | enter _ | leave _ | announce | tidy => True

@[inherit_doc Next.IsModest]
def Job.IsModest : Job → Prop
  | room _ task => task.IsModest
  | session _ task => task.IsModest
  | hold _ => True

/-- Whether a client takes in whatever it is sent, if its id is one of 64 bits. -/
def Client.IsServed (client : Client) : Prop :=
  client.sessionId < UInt64.size → ∀ o ∈ client.sent, o.IsAccepted

namespace World

/-- Whether whatever is told, or may be told later, can be told. -/
structure Modest (w : World) : Prop where
  halls : ∀ hall ∈ w.state.halls, Chat.IsShort hall.defaultRoom
  rooms : ∀ room ∈ w.state.rooms, Chat.IsShort room.name
  clients : ∀ client ∈ w.state.clients, client.IsServed
  jobs : w.pool.Holds Job.IsModest

variable {w v : World} {c : ClientRef} {r : RoomRef} {h : HallRef}

/-! ## Small changes -/

namespace Modest

variable (modest : Modest w)
include modest

theorem modifyHall (h : HallRef) {f : Hall → Hall}
    (same : ∀ hall, (f hall).defaultRoom = hall.defaultRoom) : Modest (w.modifyHall h f) where
  halls := Jobs.Pool.forall_mem_modify modest.halls fun hall _ short => same hall ▸ short
  rooms := modest.rooms
  clients := modest.clients
  jobs := modest.jobs

theorem modifyRoom (r : RoomRef) {f : Room → Room} (same : ∀ room, (f room).name = room.name) :
    Modest (w.modifyRoom r f) where
  halls := modest.halls
  rooms := Jobs.Pool.forall_mem_modify modest.rooms fun room _ short => same room ▸ short
  clients := modest.clients
  jobs := modest.jobs

theorem modifyClient (c : ClientRef) {f : Client → Client}
    (keeps : ∀ client, w.client? c = some client → client.IsServed → (f client).IsServed) :
    Modest (w.modifyClient c f) where
  halls := modest.halls
  rooms := modest.rooms
  clients := Jobs.Pool.forall_mem_modify modest.clients keeps
  jobs := modest.jobs

theorem withPool {pool : Jobs.Pool Job} (holds : pool.Holds Job.IsModest) :
    Modest (w.withPool pool) :=
  ⟨modest.halls, modest.rooms, modest.clients, holds⟩

theorem push (q : Jobs.QueueRef) {job : Job} (new : job.IsModest) : Modest (w.push q job) :=
  ⟨modest.halls, modest.rooms, modest.clients, modest.jobs.push q new⟩

theorem modifyQueue (q : Jobs.QueueRef) {f : Jobs.Queue Job → Jobs.Queue Job}
    (keeps : ∀ queue, queue.Holds Job.IsModest → (f queue).Holds Job.IsModest) :
    Modest (w.updatePool (·.modify q f)) :=
  ⟨modest.halls, modest.rooms, modest.clients, modest.jobs.modify q keeps⟩

theorem pushToRoom (r : RoomRef) (task : RoomTask) (new : task.IsModest) :
    Modest (w.pushToRoom r task) := by
  rw [World.pushToRoom]
  split
  · exact modest.push _ new
  · exact modest

theorem pushToSession (c : ClientRef) (task : SessionTask) (new : task.IsModest) :
    Modest (w.pushToSession c task) := by
  rw [World.pushToSession]
  split
  · exact modest.push _ new
  · exact modest

/-- A change of a client that sends nothing. -/
theorem modifyClient_of_sent (c : ClientRef) {f : Client → Client}
    (same : ∀ client, (f client).sessionId = client.sessionId ∧ (f client).sent = client.sent) :
    Modest (w.modifyClient c f) :=
  modest.modifyClient c fun client _ served => by
    rw [Client.IsServed, (same client).1, (same client).2]
    exact served

theorem isShort_name {room : Room} (found : w.room? r = some room) : Chat.IsShort room.name :=
  modest.rooms room (List.mem_of_getElem? found)

theorem isShort_defaultRoom {hall : Hall} (found : w.hall? h = some hall) :
    Chat.IsShort hall.defaultRoom :=
  modest.halls hall (List.mem_of_getElem? found)

/-! ## Sending -/

theorem send {o : Outgoing} (accepted : ∀ client, w.client? c = some client →
    client.sessionId < UInt64.size → o.IsAccepted) (sent : w.send c o = .ok v) : Modest v := by
  rw [World.send] at sent
  cases found : w.client? c with
  | none =>
      rw [found] at sent
      exact Except.ok.inj sent ▸ modest
  | some client =>
      simp only [found] at sent
      split at sent
      · contradiction
      · obtain rfl := Except.ok.inj sent
        refine modest.modifyClient c fun client found served small other mem => ?_
        rcases List.mem_append.1 mem with before | last
        · exact served small other before
        · exact List.mem_singleton.1 last ▸ accepted client found small

theorem trySend {o : Outgoing} (accepted : ∀ client, w.client? c = some client →
    client.sessionId < UInt64.size → o.IsAccepted) : Modest (w.trySend c o) := by
  rw [World.trySend]
  split
  · next sent => exact modest.send accepted sent
  · exact modest

theorem broadcast (r : RoomRef) {o : Outgoing} (accepted : o.IsAccepted) :
    Modest (w.broadcast r o) := by
  have all (clients : List ClientRef) : Modest (clients.foldl (fun w c => w.trySend c o) w) := by
    induction clients generalizing w with
    | nil => exact modest
    | cons c later ih => exact ih (modest.trySend fun _ _ _ => accepted)
  rw [World.broadcast]
  split
  · exact all _
  · exact modest

theorem sendUpdate (r : RoomRef) (event : Chat.RoomEvent) (playerId : Option Nat) :
    Modest (w.sendUpdate r event playerId) := by
  rw [World.sendUpdate]
  split
  · next room found =>
      exact modest.broadcast r ⟨_, rfl, Chat.accepted_update (modest.isShort_name found)⟩
  · exact modest

/-! ## Rooms -/

theorem getOrCreateRoom (h : HallRef) {name : String} (short : Chat.IsShort name) :
    Modest (w.getOrCreateRoom h name).1 := by
  rw [World.getOrCreateRoom]
  split
  · exact modest
  · apply Modest.modifyHall
    · refine ⟨modest.halls, fun room mem => ?_, modest.clients,
        modest.jobs.getOrCreate (roomQueueName name)⟩
      rcases List.mem_append.1 mem with old | new
      · exact modest.rooms room old
      · exact List.mem_singleton.1 new ▸ short
    · exact fun _ => rfl

theorem enterRoom (h : HallRef) {name : String} (short : Chat.IsShort name) (c : ClientRef) :
    Modest (w.enterRoom h name c).1 := by
  apply pushToRoom _ _ (.enter c) trivial
  apply modifyRoom (modest.getOrCreateRoom h short)
  exact fun _ => rfl

theorem pushTidy (r : RoomRef) : Modest (w.pushTidy r) := by
  rw [World.pushTidy]
  split
  · split
    · exact modest
    · exact modest.pushToRoom r .tidy trivial
  · exact modest

theorem leaveRoom (r : RoomRef) (playerId : Nat) : Modest (w.leaveRoom r playerId) :=
  (modest.pushToRoom r (.leave playerId) trivial).pushTidy r

theorem removeIfVacant (r : RoomRef) : Modest (w.removeIfVacant r) := by
  rw [World.removeIfVacant]
  split
  · exact modest
  · split
    · apply modifyHall
      · exact ⟨modest.halls, modest.rooms, modest.clients, modest.jobs⟩
      · exact fun _ => rfl
    · exact modest

theorem performRoomTask (r : RoomRef) {task : RoomTask} (new : task.IsModest) :
    Modest (w.performRoomTask r task) := by
  cases task with
  | enter c =>
      rw [World.performRoomTask]
      split
      · exact modest
      · apply sendUpdate
        apply modest.modifyRoom
        exact fun _ => rfl
  | leave playerId =>
      rw [World.performRoomTask]
      have left := modest.modifyRoom r (f := fun room =>
        let members := room.members.erase playerId
        { room with members, memberCount := members.size }) fun _ => rfl
      dsimp only
      split
      · exact left.sendUpdate r _ _
      · exact left
  | say playerId message => exact modest.broadcast r ⟨_, rfl, Chat.accepted_broadcast new⟩
  | announce => exact modest.sendUpdate r _ _
  | tidy => exact modest.removeIfVacant r

end Modest

/-! ## Sessions -/

/-- What a stage of a job leaves, and what is left to do of the job, can be told. -/
def ModestResult (result : World × Jobs.Progress Job) : Prop :=
  Modest result.1 ∧ ∀ job, result.2 = .continues job → job.IsModest

namespace Modest

variable (modest : Modest w) {client : Client}

theorem finished (after : Modest v) (outcome : Except Jobs.Failure Unit) :
    ModestResult (v, .finished outcome) := ⟨after, by simp⟩

theorem goOn (after : Modest v) (c : ClientRef) {task : SessionTask} (next : task.IsModest) :
    ModestResult (v.goOn c task) :=
  ⟨after, fun _ same => Jobs.Progress.continues.inj same ▸ next⟩

include modest

theorem answer (c : ClientRef) {response : Chat.Response}
    (accepted : (Outgoing.response response).IsAccepted) : ModestResult (w.answer c response) := by
  rw [World.answer]
  split
  · next sent => exact finished (modest.send (fun _ _ _ => accepted) sent) _
  · exact finished modest _

theorem reject {e : Chat.Error} (accepted : ∀ client, w.client? c = some client →
    client.sessionId < UInt64.size → (Outgoing.response (.error e.message)).IsAccepted) :
    ModestResult (w.reject c e) :=
  finished (modest.trySend accepted) _

theorem join (c : ClientRef) {room : String} (short : Chat.IsShort room) (asked : Bool) :
    ModestResult (w.join c room asked) := by
  have away : ModestResult (w.goOn c (.leaving (.enter room asked))) := goOn modest c short
  rw [World.join]
  split
  · next r current _ =>
    split
    · have announced := modest.pushToRoom r .announce trivial
      dsimp only
      split
      · exact goOn announced c (Outgoing.isAccepted_response (Chat.accepted_joined short true))
      · exact finished announced _
    · exact away
  · exact away

/-- A message that is passed on can be told, since it is valid. -/
theorem chat {message : String} (spoken : w.chat c client message = .ok v) : Modest v := by
  rcases chat_cases w c client message with ⟨r, room, valid, -, passed⟩ | ⟨e, failed, -⟩
  · obtain rfl := Except.ok.inj (passed.symm.trans spoken)
    exact modest.pushToRoom r (.say client.sessionId message) valid
  · rw [spoken] at failed
    contradiction

theorem takePacket (c : ClientRef) (client : Client) (id : UInt16) (payload : Bytes) :
    ModestResult (w.takePacket c client id payload) := by
  rcases takePacket_cases w c client id payload with ⟨message, v, -, spoken, passed⟩ | ⟨e, failed, -⟩
  · rw [passed]
    exact finished (modest.chat spoken) _
  · rw [failed]
    exact finished modest _

theorem takeCommand (found : w.client? c = some client) {text : String}
    (short : Chat.Command.IsModest text) : ModestResult (w.takeCommand c client text) := by
  rw [World.takeCommand]
  cases decoded : Chat.Command.decode text with
  | error e =>
      have accepted := Chat.accepted_of_decode short decoded
      exact modest.reject fun _ _ _ => Outgoing.isAccepted_response accepted
  | ok command =>
      have subject := Chat.isShort_of_decode short decoded
      cases command with
      | joinRoom room => exact modest.join c subject true
      | leaveRoom room =>
          have unknown := Outgoing.isAccepted_response (Chat.accepted_roomNotFound subject)
          dsimp only
          split
          · exact modest.reject fun _ _ _ => unknown
          · apply goOn modest
            have left (inside : Bool) :=
              Outgoing.isAccepted_response (Chat.accepted_left subject inside)
            split <;> exact left _
      | sendMessage message =>
          dsimp only
          rcases chat_cases w c client message with ⟨r, room, valid, -, passed⟩ | ⟨e, failed, why⟩
          · rw [passed]
            exact finished (modest.pushToRoom r (.say client.sessionId message) valid) _
          · rw [failed]
            refine modest.reject fun other known small => ?_
            rcases why with invalid | ⟨-, rfl⟩
            · exact Outgoing.isAccepted_response (Chat.accepted_invalidMessage subject invalid)
            · obtain rfl := Option.some.inj (found.symm.trans known)
              exact Outgoing.isAccepted_response (Chat.accepted_notInRoom small)

theorem go (client : Client) (c : ClientRef) {next : Next} (told : next.IsModest) :
    ModestResult (w.go c client next) := by
  cases next with
  | enter room asked => exact goOn (modest.enterRoom client.hall told c) c told
  | answer response => exact modest.answer c told
  | retire =>
      have retired : Modest (w.withPool (w.pool.remove (sessionQueueName client.sessionId)).1) :=
        ⟨modest.halls, modest.rooms, modest.clients, modest.jobs⟩
      exact finished retired _

theorem performSessionTask (found : w.client? c = some client) {task : SessionTask}
    (told : task.IsModest) : ModestResult (w.performSessionTask c client task) := by
  cases task with
  | welcome =>
      rw [World.performSessionTask]
      split
      · next hall known => exact modest.join c (modest.isShort_defaultRoom known) false
      · exact finished modest _
  | packet id payload => exact modest.takePacket c client id payload
  | command text => exact modest.takeCommand found told
  | farewell => exact goOn modest c trivial
  | leaving n =>
      rw [World.performSessionTask]
      split
      · exact goOn modest c told
      · next r _ =>
          have left := modest.modifyClient_of_sent c
            (f := fun client => { client with room := none }) fun _ => ⟨rfl, rfl⟩
          exact goOn (left.pushToRoom r (.leave client.sessionId) trivial) c told
  | tidying r n => exact goOn (modest.pushTidy r) c told
  | going n => exact modest.go client c told
  | arriving r room asked =>
      have arrived := modest.modifyClient_of_sent c
        (f := fun client => { client with room := some r }) fun _ => ⟨rfl, rfl⟩
      rw [World.performSessionTask]
      split
      · exact goOn arrived c (Outgoing.isAccepted_response (Chat.accepted_joined told true))
      · exact finished arrived _

theorem perform (q : Jobs.QueueRef) {job : Job} (told : job.IsModest) :
    ModestResult (World.perform q job w) := by
  cases job with
  | room r task => exact finished (modest.performRoomTask r told) _
  | session c task =>
      rw [World.perform]
      split
      · next client found => exact modest.performSessionTask found told
      · exact finished modest _
  | hold gate =>
      have passed : Modest (w.updateState (·.passGate gate)) :=
        ⟨modest.halls, modest.rooms, modest.clients, modest.jobs⟩
      rw [World.perform]
      split
      · exact finished passed _
      · exact ⟨modest, by simp⟩

/-! ## Queues -/

/-- Whatever a drain executes has been on its queue. -/
theorem perform_of_phase {q : Jobs.QueueRef} {i : Nat} {job : Job}
    (phase : Jobs.Realm.phase? w q i = some (.executing job)) :
    ModestResult (World.perform q job w) := by
  obtain ⟨queue, found, alive⟩ := phase?_eq_some.1 phase
  have told := (modest.jobs.of_queue? found).executing job (List.mem_of_getElem? alive)
  exact modest.perform q told

theorem work {q : Jobs.QueueRef} {i : Nat}
    (after : Jobs.Realm.advance? World.perform w q i = some v) : Modest v := by
  cases advances_of_advance? after with
  | fetches _ => exact modest.modifyQueue q fun _ holds => holds.fetch i
  | rechecks _ => exact modest.modifyQueue q fun _ holds => holds.recheck i
  | @finishes _ outcome _ _ phase performed state pool =>
      have result := modest.perform_of_phase phase
      rw [performed] at result
      have done := result.1.modifyQueue q fun _ holds => holds.finish i outcome
      exact ⟨state ▸ done.halls, state ▸ done.rooms, state ▸ done.clients, pool ▸ done.jobs⟩
  | @continues _ next _ phase performed =>
      have result := modest.perform_of_phase phase
      rw [performed] at result
      exact result.1.modifyQueue q fun _ holds => holds.setPhase i fun _ same =>
        Jobs.Phase.executing.inj same ▸ result.2 next rfl

/-! ## Connections -/

theorem newClient (h : HallRef) : Modest (w.newClient h).1 := by
  have numbered : Modest (w.takeSessionId h).1 := by
    rw [takeSessionId]
    split
    · apply modest.modifyHall
      exact fun _ => rfl
    · exact modest
  refine ⟨numbered.halls, numbered.rooms, fun client mem => ?_, numbered.jobs.create _⟩
  rcases List.mem_append.1 mem with old | new
  · exact numbered.clients client old
  · rw [List.mem_singleton.1 new]
    exact fun _ _ sent => absurd sent List.not_mem_nil

theorem close (c : ClientRef) : Modest (w.close c) :=
  modest.modifyClient_of_sent c fun client => by split <;> exact ⟨rfl, rfl⟩

theorem of_arriveStep? (after : w.arriveStep? c = some v) : Modest v := by
  simp only [arriveStep?, Option.bind_eq_bind, Option.bind_eq_some_iff,
    Option.ite_none_left_eq_some] at after
  obtain ⟨client, found, -, after⟩ := after
  split at after
  · obtain rfl := Option.some.inj after
    exact modest.modifyClient_of_sent c fun _ => ⟨rfl, rfl⟩
  · obtain rfl := Option.some.inj after
    rw [registerQueue, found]
    have registered := modest.withPool (modest.jobs.register client.queue)
    exact registered.modifyClient_of_sent c fun _ => ⟨rfl, rfl⟩
  · obtain rfl := Option.some.inj after
    rw [enlist, found]
    apply modifyClient_of_sent
    · apply modest.modifyHall
      exact fun _ => rfl
    · exact fun _ => ⟨rfl, rfl⟩
  · obtain rfl := Option.some.inj after
    have asked := modest.pushToSession c .welcome trivial
    exact asked.modifyClient_of_sent c fun _ => ⟨rfl, rfl⟩
  · contradiction

theorem of_departStep? (after : w.departStep? c = some v) : Modest v := by
  simp only [departStep?, Option.bind_eq_bind, Option.bind_eq_some_iff] at after
  obtain ⟨client, found, after⟩ := after
  split at after
  · rw [Option.ite_none_right_eq_some, Option.some.injEq] at after
    obtain ⟨-, rfl⟩ := after
    exact modest.close c
  · obtain rfl := Option.some.inj after
    rw [delist, found]
    apply modifyClient_of_sent
    · apply modest.modifyHall
      exact fun _ => rfl
    · exact fun _ => ⟨rfl, rfl⟩
  · obtain rfl := Option.some.inj after
    have said := modest.pushToSession c .farewell trivial
    exact said.modifyClient_of_sent c fun _ => ⟨rfl, rfl⟩
  · contradiction

theorem of_dismissStep? (after : w.dismissStep? h = some v) : Modest v := by
  simp only [dismissStep?, Option.bind_eq_bind, Option.bind_eq_some_iff] at after
  obtain ⟨hall, -, clients, -, after⟩ := after
  split at after
  · contradiction
  · next c later =>
      obtain rfl := Option.some.inj after
      have taken : Modest (w.modifyHall h fun hall => { hall with dismissing := some later }) :=
        modest.modifyHall h fun _ => rfl
      split
      · exact taken.close c
      · exact taken

theorem openHall {defaultRoom : String} (short : Chat.IsShort defaultRoom) :
    Modest (w.openHall defaultRoom).1 := by
  refine ⟨fun hall mem => ?_, modest.rooms, modest.clients, modest.jobs⟩
  rcases List.mem_append.1 mem with old | new
  · exact modest.halls hall old
  · exact List.mem_singleton.1 new ▸ short

end Modest

end World

/-! ## Courses -/

/-- Whether what an event brings in can be told: the name of a room that is asked for, or what
may be repeated of a command. -/
def Event.IsModest : Event → Prop
  | openHall defaultRoom => Chat.IsShort defaultRoom
  | room _ name | enterRoom _ name _ => Chat.IsShort name
  | packet _ (.json text) => Chat.Command.IsModest text
  | _ => True

instance : DecidablePred Event.IsModest
  | .openHall name | .room _ name | .enterRoom _ name _ =>
      inferInstanceAs (Decidable (Chat.IsShort name))
  | .packet _ (.json text) => inferInstanceAs (Decidable (Chat.Command.IsModest text))
  | .packet _ (.binary ..) | .leaveRoom .. | .tidyRoom _ | .accept _ | .start .. | .arrive _
  | .depart _ | .release _ | .work .. | .stop _ | .lookAround _ | .dismiss _ => isTrue trivial

namespace World

variable {w v : World}

/-- What is told, or may be told later, can be told after every event that brings in nothing else. -/
theorem Modest.after (modest : Modest w) {e : Event} (brings : e.IsModest)
    (after : w.after? e = some v) : Modest v := by
  cases e with
  | openHall defaultRoom =>
      obtain rfl := Option.some.inj after
      exact (modest.openHall brings).getOrCreateRoom _ brings
  | room h name =>
      simp only [after?, Option.ite_none_right_eq_some, Option.some.injEq] at after
      obtain ⟨-, rfl⟩ := after
      exact modest.getOrCreateRoom h brings
  | enterRoom h name c =>
      simp only [after?, Option.ite_none_right_eq_some, Option.some.injEq] at after
      obtain ⟨-, rfl⟩ := after
      exact modest.enterRoom h brings c
  | leaveRoom r playerId =>
      simp only [after?, Option.ite_none_right_eq_some, Option.some.injEq] at after
      obtain ⟨-, rfl⟩ := after
      exact modest.leaveRoom r playerId
  | tidyRoom r =>
      simp only [after?, Option.ite_none_right_eq_some, Option.some.injEq] at after
      obtain ⟨-, rfl⟩ := after
      exact modest.pushTidy r
  | accept h =>
      simp only [after?, acceptStep?, Option.bind_eq_bind, Option.bind_eq_some_iff,
        Option.ite_none_right_eq_some, Option.some.injEq] at after
      obtain ⟨hall, -, -, rfl⟩ := after
      exact (modest.newClient h).modifyHall h fun _ => rfl
  | start h works =>
      simp only [after?, startStep?, Option.bind_eq_bind, Option.bind_eq_some_iff,
        Option.some.injEq] at after
      obtain ⟨hall, -, c, -, rfl⟩ := after
      have emptied : Modest (w.modifyHall h fun hall => { hall with inHand := none }) :=
        modest.modifyHall h fun _ => rfl
      split
      · exact emptied.modifyClient_of_sent c fun _ => ⟨rfl, rfl⟩
      · exact emptied
  | arrive c => exact modest.of_arriveStep? after
  | packet c p =>
      simp only [after?, Option.ite_none_right_eq_some, Option.some.injEq] at after
      obtain ⟨-, rfl⟩ := after
      cases p with
      | binary id payload => exact modest.pushToSession c (.packet id payload) trivial
      | json text => exact modest.pushToSession c (.command text) brings
  | depart c => exact modest.of_departStep? after
  | release c =>
      simp only [after?, Option.ite_none_right_eq_some, Option.some.injEq] at after
      obtain ⟨-, rfl⟩ := after
      exact modest.modifyClient_of_sent c fun client => by split <;> exact ⟨rfl, rfl⟩
  | work q i => exact modest.work after
  | stop h =>
      simp only [after?, Option.ite_none_right_eq_some, Option.some.injEq] at after
      obtain ⟨-, rfl⟩ := after
      exact modest.modifyHall h fun _ => rfl
  | lookAround h =>
      simp only [after?, Option.ite_none_right_eq_some, Option.some.injEq] at after
      obtain ⟨-, rfl⟩ := after
      exact modest.modifyHall h fun _ => rfl
  | dismiss h => exact modest.of_dismissStep? after

theorem modest_empty : Modest empty where
  halls _ mem := absurd mem List.not_mem_nil
  rooms _ mem := absurd mem List.not_mem_nil
  clients _ mem := absurd mem List.not_mem_nil
  jobs _ mem := absurd mem List.not_mem_nil

theorem modest_opened {defaultRooms : List String}
    (short : ∀ name ∈ defaultRooms, Chat.IsShort name) : Modest (opened defaultRooms) := by
  have all (w : World) (modest : Modest w) :
      Modest (defaultRooms.foldl (fun w name => (w.openHall name).1) w) := by
    induction defaultRooms generalizing w with
    | nil => exact modest
    | cons name later ih =>
        obtain ⟨front, behind⟩ := List.forall_mem_cons.1 short
        exact ih behind _ (modest.openHall front)
  exact all empty modest_empty

theorem Modest.course (modest : Modest w) {events : List Event} (bring : ∀ e ∈ events, e.IsModest)
    (course : w.afterAll? events = some v) : Modest v :=
  @course_induction w v [] (fun _ w => Modest w) events
    (fun _ _ e _ mem modest after => modest.after (bring e mem) after) modest course

end World

end ChatHall.Server
