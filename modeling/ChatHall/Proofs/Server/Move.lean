/-
# The moves of a house

Whatever happens to the halls comes down to a few moves: a hall, a room or a
client is made, a task is pushed for a room or performed, a queue gets or loses
its name, a room is struck off the register, or the step is a quiet one. A move
says what it pushes for rooms and what it performs. No move takes away a room, a
client, a hall or a queue, and none changes what these are.
-/

import ChatHall.Proofs.Server.Agenda

namespace ChatHall.Server

/-- Something done for a room. -/
inductive Deed
  | push (r : RoomRef) (task : RoomTask)
  | run (r : RoomRef) (task : RoomTask)
  deriving Repr, DecidableEq

def Deed.pushed? : Deed → Option (RoomRef × RoomTask)
  | push r task => some (r, task)
  | run .. => none

def Deed.ran? : Deed → Option (RoomRef × RoomTask)
  | push .. => none
  | run r task => some (r, task)

def pushedIn (deeds : List Deed) : List (RoomRef × RoomTask) := deeds.filterMap Deed.pushed?

def ranIn (deeds : List Deed) : List (RoomRef × RoomTask) := deeds.filterMap Deed.ran?

namespace World

variable {w v u : World}

/-! ## What is made -/

theorem register?_openHall (w : World) (defaultRoom : String) (h : HallRef) :
    (w.openHall defaultRoom).1.register? h =
      if h = w.state.halls.length then some ⟨defaultRoom, {}, 1⟩ else w.register? h := by
  have appended := getElem?_append_singleton w.state.halls { defaultRoom := defaultRoom } h
  rw [register?, register?, hall?, openHall, mapHouse, Jobs.Realm.updateState, appended]
  split
  · rfl
  · rfl

theorem register?_length (w : World) : w.register? w.state.halls.length = none := by
  rw [register?, hall?, List.getElem?_eq_none (Nat.le_refl _)]
  rfl

theorem room?_length (w : World) : w.room? w.state.rooms.length = none :=
  List.getElem?_eq_none (Nat.le_refl _)

theorem client?_length (w : World) : w.client? w.state.clients.length = none :=
  List.getElem?_eq_none (Nat.le_refl _)

section NewRoom

variable {h : HallRef} {name : String}

theorem pool_getOrCreateRoom (absent : w.findRoom? h name = none) :
    (w.getOrCreateRoom h name).1.pool = (w.pool.getOrCreate (roomQueueName name)).1 := by
  rw [getOrCreateRoom, absent]
  rfl

theorem room?_getOrCreateRoom (absent : w.findRoom? h name = none) (r : RoomRef) :
    (w.getOrCreateRoom h name).1.room? r =
      if r = w.state.rooms.length then
        some { hall := h, name, queue := (w.pool.getOrCreate (roomQueueName name)).2 }
      else w.room? r := by
  rw [getOrCreateRoom, absent]
  exact getElem?_append_singleton w.state.rooms _ r

theorem standing?_getOrCreateRoom (w : World) (h : HallRef) (name : String) (c : ClientRef) :
    (w.getOrCreateRoom h name).1.standing? c = w.standing? c := by
  rw [getOrCreateRoom]
  split <;> rfl

theorem seat?_getOrCreateRoom (w : World) (h : HallRef) (name : String) (c : ClientRef) :
    (w.getOrCreateRoom h name).1.seat? c = w.seat? c := by
  rw [getOrCreateRoom]
  split <;> rfl

theorem register?_getOrCreateRoom (absent : w.findRoom? h name = none) (k : HallRef) :
    (w.getOrCreateRoom h name).1.register? k =
      if h = k then
        (w.register? k).map fun register =>
          { register with rooms := register.rooms.insert name w.state.rooms.length }
      else w.register? k := by
  rw [getOrCreateRoom, absent]
  exact register?_modifyHall _ h k fun _ => rfl

theorem getOrCreateRoom_of_some {r : RoomRef} (found : w.findRoom? h name = some r) :
    w.getOrCreateRoom h name = (w, r) := by
  rw [getOrCreateRoom, found]

theorem getOrCreateRoom_snd (absent : w.findRoom? h name = none) :
    (w.getOrCreateRoom h name).2 = w.state.rooms.length := by
  rw [getOrCreateRoom, absent]
  rfl

/-- The register after a look-up has that room under that name and the others as before. -/
theorem findRoom?_getOrCreateRoom (known : (w.register? h).isSome) (k : HallRef) (other : String) :
    (w.getOrCreateRoom h name).1.findRoom? k other =
      if k = h ∧ other = name then some (w.getOrCreateRoom h name).2 else w.findRoom? k other := by
  cases found : w.findRoom? h name with
  | some r =>
      rw [getOrCreateRoom_of_some found]
      split
      · next same => rw [same.1, same.2, found]
      · rfl
  | none =>
      rw [findRoom?_eq, findRoom?_eq, register?_getOrCreateRoom found, getOrCreateRoom_snd found]
      by_cases here : h = k
      · subst here
        obtain ⟨register, hregister⟩ := Option.isSome_iff_exists.1 known
        rw [if_pos rfl, hregister]
        simp only [Option.map_some, Option.bind_some, Table.find?_insert, true_and]
      · rw [if_neg here, if_neg fun both => here both.1.symm]

theorem findRoom?_getOrCreateRoom_self (known : (w.register? h).isSome) :
    (w.getOrCreateRoom h name).1.findRoom? h name = some (w.getOrCreateRoom h name).2 := by
  rw [findRoom?_getOrCreateRoom known]
  exact if_pos ⟨rfl, rfl⟩

end NewRoom

section NewClient

variable {h : HallRef} {hall : Hall}

theorem pool_newClient (found : w.hall? h = some hall) :
    (w.newClient h).1.pool = (w.pool.create (sessionQueueName hall.nextSessionId)).1 := by
  rw [newClient, takeSessionId, found]
  rfl

theorem room?_newClient (w : World) (h : HallRef) (r : RoomRef) :
    (w.newClient h).1.room? r = w.room? r := by
  rw [newClient, takeSessionId]
  cases w.hall? h <;> rfl

theorem client?_newClient (found : w.hall? h = some hall) (c : ClientRef) :
    (w.newClient h).1.client? c =
      if c = w.state.clients.length then
        some { hall := h, sessionId := hall.nextSessionId, queue := w.pool.queues.length }
      else w.client? c := by
  rw [newClient, takeSessionId, found]
  exact getElem?_append_singleton w.state.clients _ c

theorem standing?_newClient (found : w.hall? h = some hall) (c : ClientRef) :
    (w.newClient h).1.standing? c =
      if c = w.state.clients.length then some ⟨h, hall.nextSessionId, w.pool.queues.length⟩
      else w.standing? c := by
  rw [standing?, standing?, client?_newClient found]
  split <;> rfl

theorem seat?_newClient (found : w.hall? h = some hall) (c : ClientRef) :
    (w.newClient h).1.seat? c = w.seat? c := by
  rw [seat?, seat?, client?_newClient found]
  split
  · next new => rw [new, client?_length, Option.bind_some, Option.bind_none]
  · rfl

theorem register?_newClient (found : w.hall? h = some hall) (k : HallRef) :
    (w.newClient h).1.register? k =
      if h = k then
        (w.register? k).map fun register =>
          { register with nextSessionId := register.nextSessionId + 1 }
      else w.register? k := by
  rw [newClient, takeSessionId, found]
  exact register?_modifyHall _ h k fun _ => rfl

end NewClient

/-! ## What is pushed and performed -/

theorem agenda?_push (w : World) (q k : Jobs.QueueRef) (job : Job) :
    agenda? (w.push q job) k =
      if q = k then (w.agenda? k).map (· ++ job.roomTask?.toList) else w.agenda? k := by
  rw [agenda?, agenda?, Jobs.Realm.push, Jobs.Realm.updatePool, Jobs.Pool.push,
    Jobs.Pool.queue?_modify]
  split
  · rw [Option.map_map, Option.map_map]
    refine congrFun (congrArg Option.map (funext fun queue => ?_)) _
    simp only [Function.comp, Jobs.Queue.outstanding_push, List.filterMap_append]
    cases job <;> rfl
  · rfl

theorem queueName?_push (w : World) (q k : Jobs.QueueRef) (job : Job) :
    queueName? (w.push q job) k = w.queueName? k := by
  rw [queueName?, queueName?, Jobs.Realm.push, Jobs.Realm.updatePool, Jobs.Pool.push,
    Jobs.Pool.queue?_modify]
  split
  · rw [Option.map_map]
    exact congrFun (congrArg Option.map (funext fun _ => Jobs.Queue.name_push job)) _
  · rfl

theorem pushToRoom_of_room {r : RoomRef} {room : Room} (found : w.room? r = some room)
    (task : RoomTask) : w.pushToRoom r task = w.push room.queue (.room r task) := by
  rw [pushToRoom, found]

def membersAfter (w : World) (members : Table Nat ClientRef) : RoomTask → Table Nat ClientRef
  | .enter c =>
    match w.standing? c with
    | some s => members.insert s.sessionId c
    | none => members
  | .leave playerId => members.erase playerId
  | _ => members

def roomAfter (w : World) (task : RoomTask) (room : Room) : Room :=
  match task with
  | .enter c =>
    if (w.standing? c).isSome then
      { room with
        members := w.membersAfter room.members task
        memberCount := (w.membersAfter room.members task).size
        pendingEnters := room.pendingEnters - 1 }
    else room
  | .leave _ =>
    { room with
      members := w.membersAfter room.members task
      memberCount := (w.membersAfter room.members task).size }
  | _ => room

/-- A vacant room and its queue are struck off. -/
def strike (w : World) (room : Room) : World :=
  (w.withPool (w.pool.remove (roomQueueName room.name)).1).modifyHall room.hall fun hall =>
    { hall with rooms := hall.rooms.erase room.name }

theorem calm_modifyRoom (w : World) (r : RoomRef) : Calm (w.modifyRoom r fun room => room) w where
  pool := rfl
  room? s := by
    rw [room?_modifyRoom]
    split
    · exact Option.map_id'.symm
    · rfl
  standing? _ := rfl
  seat? _ := rfl
  register? _ := rfl

/-- A task that may not strike the room off changes the room alone. -/
theorem calm_performRoomTask (w : World) (r : RoomRef) {task : RoomTask} (other : task ≠ .tidy) :
    Calm (w.modifyRoom r (w.roomAfter task)) (w.performRoomTask r task) := by
  cases task with
  | enter c =>
      rw [performRoomTask]
      cases found : w.client? c with
      | none =>
          have unknown : w.roomAfter (.enter c) = fun room => room := by
            funext room
            rw [roomAfter, standing?, found]
            rfl
          rw [unknown]
          exact calm_modifyRoom w r
      | some client =>
          have entered : w.roomAfter (.enter c) = fun room =>
              let members := room.members.insert client.sessionId c
              { room with
                members
                memberCount := members.size
                pendingEnters := room.pendingEnters - 1 } := by
            funext room
            rw [roomAfter, membersAfter, standing?_of_client found]
            rfl
          rw [entered]
          exact calm_sendUpdate _ _ _ _
  | leave playerId =>
      rw [performRoomTask]
      dsimp only
      split
      · exact calm_sendUpdate _ _ _ _
      · exact Calm.refl _
  | say playerId message => exact (calm_modifyRoom w r).trans (calm_broadcast _ _ _)
  | announce => exact (calm_modifyRoom w r).trans (calm_sendUpdate _ _ _ _)
  | tidy => contradiction

/-- A room is struck off if it is registered and vacant, and nothing else happens. -/
theorem removeIfVacant_cases (w : World) (r : RoomRef) :
    w.removeIfVacant r = w ∨
      ∃ room, w.room? r = some room ∧ w.findRoom? room.hall room.name = some r ∧
        room.isVacant = true ∧ w.removeIfVacant r = w.strike room := by
  rw [removeIfVacant]
  cases found : w.room? r with
  | none => exact .inl rfl
  | some room =>
      dsimp only
      split
      · next may =>
          rw [Bool.and_eq_true, decide_eq_true_iff] at may
          exact .inr ⟨room, rfl, may.1, may.2, rfl⟩
      · exact .inl rfl

/-! ## Moves -/

/-- The moves, with what they do for rooms. -/
inductive Move : World → List Deed → World → Prop
  | quiet {w v : World} (quiet : Quiet w v) : Move w [] v
  | openHall (w : World) (defaultRoom : String) : Move w [] (w.openHall defaultRoom).1
  | makeRoom (w : World) (h : HallRef) (name : String) (known : (w.register? h).isSome)
      (absent : w.findRoom? h name = none) : Move w [] (w.getOrCreateRoom h name).1
  | newClient (w : World) (h : HallRef) (hall : Hall) (found : w.hall? h = some hall) :
      Move w [] (w.newClient h).1
  | name (w : World) (c : ClientRef) (client : Client) (found : w.client? c = some client) :
      Move w [] (w.withPool (w.pool.register client.queue))
  | unname (w : World) (sessionId : Nat) :
      Move w [] (w.withPool (w.pool.remove (sessionQueueName sessionId)).1)
  /-- The entrance into a registered room is asked for. -/
  | enter (w : World) (h : HallRef) (name : String) (r : RoomRef) (c : ClientRef)
      (registered : w.findRoom? h name = some r) (known : (w.standing? c).isSome) :
      Move w [.push r (.enter c)] (w.pushEnter r c)
  /-- Another task is pushed; a default room is not asked to be given up. -/
  | push (w : World) (r : RoomRef) (room : Room) (task : RoomTask) (found : w.room? r = some room)
      (other : ∀ c, task ≠ .enter c)
      (spares : task = .tidy → ∀ register, w.register? room.hall = some register →
        room.name ≠ register.defaultRoom) :
      Move w [.push r task] (w.pushToRoom r task)
  /-- A vacant room that has been asked to be given up is struck off. -/
  | strike (w : World) (q : Jobs.QueueRef) (r : RoomRef) (room : Room)
      (agenda : List (RoomRef × RoomTask)) (found : w.room? r = some room)
      (registered : w.findRoom? room.hall room.name = some r) (vacant : room.isVacant = true)
      (owes : w.agenda? q = some agenda) (asked : (r, .tidy) ∈ agenda) :
      Move w [] (w.strike room)
  /-- A drain performs a task. -/
  | run (w : World) (q : Jobs.QueueRef) (i : Nat) (r : RoomRef) (task : RoomTask)
      (queue : Jobs.Queue Job) (found : w.pool.queue? q = some queue)
      (executes : queue.drains[i]? = some (.executing (.room r task))) :
      Move w [.run r task]
        ((w.modifyRoom r (w.roomAfter task)).updatePool (·.modify q (·.finish i (.ok ()))))

inductive Moves : World → List Deed → World → Prop
  | refl (w : World) : Moves w [] w
  | step {w v u : World} {deeds later : List Deed} (moves : Moves w deeds v)
      (last : Move v later u) : Moves w (deeds ++ later) u

theorem Move.moves {deeds : List Deed} (move : Move w deeds v) : Moves w deeds v :=
  .step (.refl w) move

theorem Moves.trans {deeds later : List Deed} (first : Moves w deeds v) (second : Moves v later u) :
    Moves w (deeds ++ later) u := by
  induction second with
  | refl =>
      rw [List.append_nil]
      exact first
  | step _ last ih =>
      rw [← List.append_assoc]
      exact ih.step last

theorem Quiet.moves (h : Quiet w v) : Moves w [] v := (Move.quiet h).moves

theorem Moves.then_quiet {deeds : List Deed} (moves : Moves w deeds v) (h : Quiet v u) :
    Moves w deeds u := by
  have all := moves.trans h.moves
  rwa [List.append_nil] at all

end World

end ChatHall.Server
