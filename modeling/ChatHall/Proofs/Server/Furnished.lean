/-
# References stay good

Whatever is referred to exists: the queue of a room and its hall, the queue and
the hall of a client, the room behind a name in the register. Session ids are
given out once in each hall. Moves keep all this, for they take nothing away.
-/

import ChatHall.Proofs.Server.Move

namespace ChatHall.Server.World

variable {w v u : World} {deeds : List Deed}

/-! ## What a move leaves alone -/

@[simp]
theorem room?_pushToRoom (w : World) (r s : RoomRef) (task : RoomTask) :
    (w.pushToRoom r task).room? s = w.room? s := by
  rw [pushToRoom]
  split <;> rfl

@[simp]
theorem standing?_pushToRoom (w : World) (r : RoomRef) (task : RoomTask) (c : ClientRef) :
    (w.pushToRoom r task).standing? c = w.standing? c := by
  rw [pushToRoom]
  split <;> rfl

@[simp]
theorem register?_pushToRoom (w : World) (r : RoomRef) (task : RoomTask) (h : HallRef) :
    (w.pushToRoom r task).register? h = w.register? h := by
  rw [pushToRoom]
  split <;> rfl

@[simp]
theorem find?_pushToRoom (w : World) (r : RoomRef) (task : RoomTask) (name : String) :
    (w.pushToRoom r task).pool.find? name = w.pool.find? name := by
  rw [pushToRoom]
  split <;> rfl

@[simp]
theorem queueName?_pushToRoom (w : World) (r : RoomRef) (task : RoomTask) (q : Jobs.QueueRef) :
    (w.pushToRoom r task).queueName? q = w.queueName? q := by
  rw [pushToRoom]
  split
  · exact queueName?_push w _ q _
  · rfl

theorem serial_pushToRoom (serial : w.pool.Serial) (r : RoomRef) (task : RoomTask) :
    (w.pushToRoom r task).pool.Serial := by
  rw [pushToRoom]
  split
  · exact serial.push _ _
  · exact serial

theorem room?_pushEnter (w : World) (r s : RoomRef) (c : ClientRef) :
    (w.pushEnter r c).room? s =
      if r = s then
        (w.room? s).map fun room => { room with pendingEnters := room.pendingEnters + 1 }
      else w.room? s := by
  rw [pushEnter, room?_pushToRoom, room?_modifyRoom]

theorem findRoom?_pushToRoom (w : World) (r : RoomRef) (task : RoomTask) (h : HallRef)
    (name : String) : (w.pushToRoom r task).findRoom? h name = w.findRoom? h name := by
  rw [findRoom?_eq, findRoom?_eq, register?_pushToRoom]

theorem findRoom?_pushEnter (w : World) (r : RoomRef) (c : ClientRef) (h : HallRef)
    (name : String) : (w.pushEnter r c).findRoom? h name = w.findRoom? h name := by
  rw [pushEnter, findRoom?_pushToRoom]
  rfl

@[simp]
theorem hall_roomAfter (w : World) (task : RoomTask) (room : Room) :
    (w.roomAfter task room).hall = room.hall := by
  cases task <;> simp only [roomAfter]
  split <;> rfl

@[simp]
theorem name_roomAfter (w : World) (task : RoomTask) (room : Room) :
    (w.roomAfter task room).name = room.name := by
  cases task <;> simp only [roomAfter]
  split <;> rfl

@[simp]
theorem queue_roomAfter (w : World) (task : RoomTask) (room : Room) :
    (w.roomAfter task room).queue = room.queue := by
  cases task <;> simp only [roomAfter]
  split <;> rfl

theorem register?_strike (w : World) (room : Room) (h : HallRef) :
    (w.strike room).register? h =
      if room.hall = h then
        (w.register? h).map fun register =>
          { register with rooms := register.rooms.erase room.name }
      else w.register? h :=
  register?_modifyHall (w.withPool (w.pool.remove (roomQueueName room.name)).1) room.hall h fun _ => rfl

/-- A room is struck off without a change of any other. -/
theorem findRoom?_strike (w : World) (room : Room) (h : HallRef) (name : String) :
    (w.strike room).findRoom? h name =
      if h = room.hall ∧ name = room.name then none else w.findRoom? h name := by
  rw [findRoom?_eq, findRoom?_eq, register?_strike]
  by_cases here : room.hall = h
  · subst here
    cases w.register? room.hall with
    | none => simp
    | some register => simp [Table.find?_erase]
  · rw [if_neg here, if_neg fun both => here both.1.symm]

/-! ## What a move keeps -/

/-- The rooms, clients, halls and queues of a world are in another one, and are what they
were. -/
structure Extends (w v : World) : Prop where
  room : ∀ r room, w.room? r = some room →
    ∃ after, v.room? r = some after ∧ after.hall = room.hall ∧ after.name = room.name ∧
      after.queue = room.queue
  standing : ∀ c s, w.standing? c = some s → v.standing? c = some s
  register : ∀ h register, w.register? h = some register →
    ∃ after, v.register? h = some after ∧ after.defaultRoom = register.defaultRoom ∧
      register.nextSessionId ≤ after.nextSessionId
  queueName : ∀ q name, w.queueName? q = some name → v.queueName? q = some name

theorem Extends.refl (w : World) : Extends w w where
  room _ room found := ⟨room, found, rfl, rfl, rfl⟩
  standing _ _ found := found
  register _ register found := ⟨register, found, rfl, Nat.le_refl _⟩
  queueName _ _ found := found

theorem Extends.trans (first : Extends w v) (second : Extends v u) : Extends w u where
  room r room found := by
    obtain ⟨mid, foundMid, hallMid, nameMid, queueMid⟩ := first.room r room found
    obtain ⟨after, foundAfter, hallAfter, nameAfter, queueAfter⟩ := second.room r mid foundMid
    exact ⟨after, foundAfter, hallAfter.trans hallMid, nameAfter.trans nameMid,
      queueAfter.trans queueMid⟩
  standing c s found := second.standing c s (first.standing c s found)
  register h register found := by
    obtain ⟨mid, foundMid, defaultMid, leMid⟩ := first.register h register found
    obtain ⟨after, foundAfter, defaultAfter, leAfter⟩ := second.register h mid foundMid
    exact ⟨after, foundAfter, defaultAfter.trans defaultMid, Nat.le_trans leMid leAfter⟩
  queueName q name found := second.queueName q name (first.queueName q name found)

/-- A reference below the end of a list is not the end. -/
theorem ne_length_of_room {r : RoomRef} {room : Room} (found : w.room? r = some room) :
    r ≠ w.state.rooms.length := by
  rintro rfl
  rw [room?_length] at found
  contradiction

theorem Move.room (move : Move w deeds v) {r : RoomRef} {room : Room}
    (found : w.room? r = some room) :
    ∃ after, v.room? r = some after ∧ after.hall = room.hall ∧ after.name = room.name ∧
      after.queue = room.queue := by
  cases move with
  | quiet quiet => exact ⟨room, (quiet.room? r).trans found, rfl, rfl, rfl⟩
  | openHall => exact ⟨room, found, rfl, rfl, rfl⟩
  | makeRoom h name _ absent =>
      refine ⟨room, ?_, rfl, rfl, rfl⟩
      rw [room?_getOrCreateRoom absent, if_neg (ne_length_of_room found), found]
  | newClient h => exact ⟨room, (room?_newClient w h r).trans found, rfl, rfl, rfl⟩
  | name => exact ⟨room, found, rfl, rfl, rfl⟩
  | unname => exact ⟨room, found, rfl, rfl, rfl⟩
  | enter h name s c =>
      rw [room?_pushEnter, found]
      split
      · exact ⟨_, rfl, rfl, rfl, rfl⟩
      · exact ⟨room, rfl, rfl, rfl, rfl⟩
  | push s _ task => exact ⟨room, (room?_pushToRoom w s r task).trans found, rfl, rfl, rfl⟩
  | strike => exact ⟨room, found, rfl, rfl, rfl⟩
  | run q i s task =>
      have changed := room?_modifyRoom w s r (w.roomAfter task)
      rw [found] at changed
      by_cases here : s = r
      · rw [if_pos here] at changed
        exact ⟨_, changed, hall_roomAfter .., name_roomAfter .., queue_roomAfter ..⟩
      · rw [if_neg here] at changed
        exact ⟨room, changed, rfl, rfl, rfl⟩

theorem Move.standing (move : Move w deeds v) {c : ClientRef} {s : Standing}
    (found : w.standing? c = some s) : v.standing? c = some s := by
  cases move with
  | quiet quiet => exact (quiet.standing? c).trans found
  | openHall => exact found
  | makeRoom h name => exact (standing?_getOrCreateRoom w h name c).trans found
  | newClient h hall known =>
      rw [standing?_newClient known]
      split
      · next new =>
          rw [new, standing?, client?_length] at found
          contradiction
      · exact found
  | name => exact found
  | unname => exact found
  | enter h name r d => exact (standing?_pushToRoom _ r _ c).trans found
  | push r _ task => exact (standing?_pushToRoom w r task c).trans found
  | strike => exact found
  | run => exact found

theorem Move.register (move : Move w deeds v) {h : HallRef} {register : Register}
    (found : w.register? h = some register) :
    ∃ after, v.register? h = some after ∧ after.defaultRoom = register.defaultRoom ∧
      register.nextSessionId ≤ after.nextSessionId := by
  cases move with
  | quiet quiet => exact ⟨register, (quiet.register? h).trans found, rfl, Nat.le_refl _⟩
  | openHall =>
      rw [register?_openHall]
      split
      · next new =>
          rw [new, register?_length] at found
          contradiction
      · exact ⟨register, found, rfl, Nat.le_refl _⟩
  | makeRoom k name _ absent =>
      rw [register?_getOrCreateRoom absent, found]
      split
      · exact ⟨_, rfl, rfl, Nat.le_refl _⟩
      · exact ⟨register, rfl, rfl, Nat.le_refl _⟩
  | newClient k hall known =>
      rw [register?_newClient known, found]
      split
      · exact ⟨_, rfl, rfl, Nat.le_succ _⟩
      · exact ⟨register, rfl, rfl, Nat.le_refl _⟩
  | name => exact ⟨register, found, rfl, Nat.le_refl _⟩
  | unname => exact ⟨register, found, rfl, Nat.le_refl _⟩
  | enter k name r c =>
      exact ⟨register, (register?_pushToRoom _ r _ h).trans found, rfl, Nat.le_refl _⟩
  | push r _ task =>
      exact ⟨register, (register?_pushToRoom w r task h).trans found, rfl, Nat.le_refl _⟩
  | strike q r room =>
      rw [register?_strike, found]
      split
      · exact ⟨_, rfl, rfl, Nat.le_refl _⟩
      · exact ⟨register, rfl, rfl, Nat.le_refl _⟩
  | run => exact ⟨register, found, rfl, Nat.le_refl _⟩

theorem queueName?_getOrCreate {name : String} {pool : Jobs.Pool Job} {k : Jobs.QueueRef}
    {asked : String} (found : (pool.queue? k).map Jobs.Queue.name = some name) :
    ((pool.getOrCreate asked).1.queue? k).map Jobs.Queue.name = some name := by
  obtain ⟨queue, known, named⟩ := Option.map_eq_some_iff.1 found
  rw [Jobs.Pool.queue?_getOrCreate_of_some asked known]
  exact congrArg some named

theorem Move.queueName (move : Move w deeds v) {k : Jobs.QueueRef} {name : String}
    (found : w.queueName? k = some name) : v.queueName? k = some name := by
  cases move with
  | quiet quiet => exact (quiet.queueName? k).trans found
  | openHall => exact found
  | makeRoom h asked _ absent =>
      rw [queueName?, pool_getOrCreateRoom absent]
      exact queueName?_getOrCreate found
  | newClient h hall known =>
      rw [queueName?, pool_newClient known, Jobs.Pool.queue?_create]
      split
      · next new =>
          rw [queueName?, new, Jobs.Pool.queue?_length] at found
          contradiction
      · exact found
  | name c client => 
      rw [queueName?]
      exact (congrArg _ (Jobs.Pool.queue?_register client.queue k)).trans found
  | unname => exact found
  | enter h asked r c => exact (queueName?_pushToRoom _ r _ k).trans found
  | push r _ task => exact (queueName?_pushToRoom w r task k).trans found
  | strike => exact found
  | run q i r task queue known =>
      rw [queueName?, Jobs.Realm.updatePool, Jobs.Pool.queue?_modify]
      split
      · rw [Option.map_map]
        exact (congrFun (congrArg Option.map (funext fun _ => Jobs.Queue.name_finish i _)) _).trans found
      · exact found

theorem Move.extends (move : Move w deeds v) : Extends w v where
  room _ _ found := move.room found
  standing _ _ found := move.standing found
  register _ _ found := move.register found
  queueName _ _ found := move.queueName found

theorem Moves.extends (moves : Moves w deeds v) : Extends w v := by
  induction moves with
  | refl => exact Extends.refl _
  | step _ last ih => exact ih.trans last.extends

/-! ## What is new after a move -/

structure MadeRoom (w v : World) (r : RoomRef) (room : Room) : Prop where
  ref : r = w.state.rooms.length
  known : (w.register? room.hall).isSome
  absent : w.findRoom? room.hall room.name = none
  world : v = (w.getOrCreateRoom room.hall room.name).1
  room : room = {
    hall := room.hall
    name := room.name
    queue := (w.pool.getOrCreate (roomQueueName room.name)).2 }

theorem Move.madeRoom (move : Move w deeds v) {r : RoomRef} {room : Room}
    (missing : w.room? r = none) (found : v.room? r = some room) :
    deeds = [] ∧ MadeRoom w v r room := by
  have unchanged : v.room? r ≠ none := by
    rw [found]
    exact Option.some_ne_none room
  cases move with
  | quiet quiet => exact absurd ((quiet.room? r).trans missing) unchanged
  | openHall => exact absurd missing unchanged
  | makeRoom h name known absent =>
      rw [room?_getOrCreateRoom absent] at found
      split at found
      · next new =>
          obtain rfl := Option.some.inj found
          exact ⟨rfl, new, known, absent, rfl, rfl⟩
      · rw [missing] at found
        contradiction
  | newClient h => exact absurd ((room?_newClient w h r).trans missing) unchanged
  | name => exact absurd missing unchanged
  | unname => exact absurd missing unchanged
  | enter h name s c =>
      rw [room?_pushEnter, missing] at unchanged
      split at unchanged <;> exact absurd rfl unchanged
  | push s _ task => exact absurd ((room?_pushToRoom w s r task).trans missing) unchanged
  | strike => exact absurd missing unchanged
  | run q i s task =>
      have changed := room?_modifyRoom w s r (w.roomAfter task)
      rw [missing, Option.map_none, ite_self] at changed
      exact absurd changed unchanged

structure MadeClient (w v : World) (c : ClientRef) (s : Standing) : Prop where
  ref : c = w.state.clients.length
  queue : s.queue = w.pool.queues.length
  world : v = (w.newClient s.hall).1
  hall : ∃ hall, w.hall? s.hall = some hall ∧ hall.nextSessionId = s.sessionId

theorem Move.madeClient (move : Move w deeds v) {c : ClientRef} {s : Standing}
    (missing : w.standing? c = none) (found : v.standing? c = some s) : MadeClient w v c s := by
  have unchanged : v.standing? c ≠ none := by
    rw [found]
    exact Option.some_ne_none s
  cases move with
  | quiet quiet => exact absurd ((quiet.standing? c).trans missing) unchanged
  | openHall => exact absurd missing unchanged
  | makeRoom h name =>
      exact absurd ((standing?_getOrCreateRoom w h name c).trans missing) unchanged
  | newClient h hall known =>
      rw [standing?_newClient known] at found
      split at found
      · next new =>
          obtain rfl := Option.some.inj found
          exact ⟨new, rfl, rfl, hall, known, rfl⟩
      · rw [missing] at found
        contradiction
  | name => exact absurd missing unchanged
  | unname => exact absurd missing unchanged
  | enter h name r d =>
      rw [pushEnter, standing?_pushToRoom] at unchanged
      exact absurd missing unchanged
  | push r _ task => exact absurd ((standing?_pushToRoom w r task c).trans missing) unchanged
  | strike => exact absurd missing unchanged
  | run => exact absurd missing unchanged

/-- A name that is found was there before, or its room has just been made. -/
theorem Move.findRoom (move : Move w deeds v) {h : HallRef} {name : String} {r : RoomRef}
    (found : v.findRoom? h name = some r) :
    w.findRoom? h name = some r ∨
      ∃ room, v.room? r = some room ∧ room.hall = h ∧ room.name = name ∧ MadeRoom w v r room := by
  cases move with
  | quiet quiet => exact .inl ((quiet.findRoom? h name).symm.trans found)
  | openHall =>
      rw [findRoom?_eq, register?_openHall] at found
      split at found
      · contradiction
      · rw [← findRoom?_eq] at found
        exact .inl found
  | makeRoom k asked known absent =>
      rw [findRoom?_getOrCreateRoom known, getOrCreateRoom_snd absent] at found
      split at found
      · next new =>
          obtain ⟨rfl, rfl⟩ := new
          have ref := (Option.some.inj found).symm
          have made := room?_getOrCreateRoom absent r
          rw [if_pos ref] at made
          exact .inr ⟨_, made, rfl, rfl, ref, known, absent, rfl, rfl⟩
      · exact .inl found
  | newClient k hall known =>
      left
      rw [findRoom?_eq, register?_newClient known] at found
      rw [findRoom?_eq]
      split at found
      · cases before : w.register? h with
        | none =>
            rw [before] at found
            contradiction
        | some register =>
            rw [before] at found
            exact found
      · exact found
  | name => exact .inl found
  | unname => exact .inl found
  | enter k asked s c => exact .inl ((findRoom?_pushEnter w s c h name).symm.trans found)
  | push s _ task => exact .inl ((findRoom?_pushToRoom w s task h name).symm.trans found)
  | strike q s room =>
      rw [findRoom?_strike] at found
      split at found
      · contradiction
      · exact .inl found
  | run => exact .inl found

/-! ## The invariant -/

/-- Every reference is good, and session ids are given out once. -/
structure Furnished (w : World) : Prop where
  serial : w.pool.Serial
  named : w.pool.Named
  hallOfClient : ∀ c s, w.standing? c = some s →
    ∃ register, w.register? s.hall = some register ∧ s.sessionId < register.nextSessionId
  queueOfClient : ∀ c s, w.standing? c = some s →
    w.queueName? s.queue = some (sessionQueueName s.sessionId)
  distinct : ∀ c d s t, w.standing? c = some s → w.standing? d = some t → s.hall = t.hall →
    s.sessionId = t.sessionId → c = d
  hallOfRoom : ∀ r room, w.room? r = some room → (w.register? room.hall).isSome
  queueOfRoom : ∀ r room, w.room? r = some room → (w.queueName? room.queue).isSome
  registered : ∀ h name r, w.findRoom? h name = some r →
    ∃ room, w.room? r = some room ∧ room.hall = h ∧ room.name = name

theorem Move.serial (move : Move w deeds v) (serial : w.pool.Serial) : v.pool.Serial := by
  cases move with
  | quiet quiet => exact quiet.serial serial
  | openHall => exact serial
  | makeRoom h name _ absent =>
      rw [pool_getOrCreateRoom absent]
      exact serial.getOrCreate _
  | newClient h hall found =>
      rw [pool_newClient found]
      exact serial.create _
  | name c client => exact serial.register client.queue
  | unname sessionId => exact serial.remove _
  | enter h name r c =>
      rw [pushEnter]
      apply serial_pushToRoom
      exact serial
  | push r _ task => exact serial_pushToRoom serial r task
  | strike q r room => exact serial.remove _
  | run q i r task queue => exact serial.modify fun _ _ served => served.finish i _

/-- The names stay good if the queues stay. -/
theorem named_of_find?_eq (named : w.pool.Named)
    (queueName : ∀ q name, w.queueName? q = some name → v.queueName? q = some name)
    (find? : ∀ name, v.pool.find? name = w.pool.find? name) : v.pool.Named := by
  intro name q found
  obtain ⟨queue, known⟩ := Option.isSome_iff_exists.1 (named name q ((find? name).symm.trans found))
  have kept := queueName q queue.name (congrArg (Option.map Jobs.Queue.name) known)
  rw [← Option.isSome_map (f := Jobs.Queue.name)]
  exact Option.isSome_of_eq_some kept

theorem Move.named (move : Move w deeds v) (named : w.pool.Named) : v.pool.Named := by
  have kept : ∀ q name, w.queueName? q = some name → v.queueName? q = some name :=
    fun q name => move.queueName
  cases move with
  | quiet quiet => exact named_of_find?_eq named kept quiet.find?
  | openHall => exact named
  | makeRoom h name _ absent =>
      rw [pool_getOrCreateRoom absent]
      exact named.getOrCreate _
  | newClient h hall found =>
      rw [pool_newClient found]
      exact named.create _
  | name c client => exact named.register client.queue
  | unname sessionId => exact named.remove _
  | enter h name r c =>
      exact named_of_find?_eq named kept fun asked => find?_pushToRoom _ r (.enter c) asked
  | push r _ task => exact named_of_find?_eq named kept (find?_pushToRoom w r task)
  | strike q r room => exact named.remove _
  | run q i r task queue => exact named.modify q _

/-- A client that is there after a move was there before, or has just been made. -/
theorem Move.standing_cases (move : Move w deeds v) {c : ClientRef} {s : Standing}
    (found : v.standing? c = some s) : w.standing? c = some s ∨ MadeClient w v c s := by
  cases before : w.standing? c with
  | none => exact .inr (move.madeClient before found)
  | some t => exact .inl ((move.standing before).symm.trans found)

/-- A room that is there after a move was there before, or has just been made. -/
theorem Move.room_cases (move : Move w deeds v) {r : RoomRef} {room : Room}
    (found : v.room? r = some room) :
    (∃ old, w.room? r = some old ∧ room.hall = old.hall ∧ room.name = old.name ∧
      room.queue = old.queue) ∨ MadeRoom w v r room := by
  cases before : w.room? r with
  | none => exact .inr (move.madeRoom before found).2
  | some old =>
      obtain ⟨same, hsame, hall, name, queue⟩ := move.room before
      obtain rfl := Option.some.inj (hsame.symm.trans found)
      exact .inl ⟨old, rfl, hall, name, queue⟩

/-- The identity of a made client is in order. -/
theorem MadeClient.furnished {c : ClientRef} {s : Standing} (h : MadeClient w v c s) :
    (∃ register, v.register? s.hall = some register ∧ s.sessionId < register.nextSessionId) ∧
      v.queueName? s.queue = some (sessionQueueName s.sessionId) := by
  obtain ⟨hall, found, next⟩ := h.hall
  have before : w.register? s.hall = some hall.register := by
    rw [World.register?, found]
    rfl
  have register := register?_newClient found s.hall
  rw [if_pos rfl, before, ← h.world] at register
  have queue := congrArg (Jobs.Pool.queue? · s.queue) (pool_newClient found)
  rw [Jobs.Pool.queue?_create, if_pos h.queue, ← h.world] at queue
  refine ⟨⟨_, register, ?_⟩, ?_⟩
  · rw [← next]
    exact Nat.lt_succ_self _
  · rw [queueName?, queue, ← next]
    rfl

/-- A made client has a session id that nobody in its hall had. -/
theorem Furnished.sessionId_ne (h : Furnished w) {c d : ClientRef} {s t : Standing}
    (made : MadeClient w v c s) (found : w.standing? d = some t) (same : t.hall = s.hall) :
    t.sessionId ≠ s.sessionId := by
  obtain ⟨hall, known, next⟩ := made.hall
  obtain ⟨register, hregister, below⟩ := h.hallOfClient d t found
  have before : w.register? s.hall = some hall.register := by
    rw [World.register?, known]
    rfl
  rw [same, before] at hregister
  obtain rfl := Option.some.inj hregister
  rw [← next]
  exact Nat.ne_of_lt below

/-- Moves keep all references good. -/
theorem Furnished.move (h : Furnished w) (move : Move w deeds v) : Furnished v where
  serial := move.serial h.serial
  named := move.named h.named
  hallOfClient c s found := by
    rcases move.standing_cases found with old | made
    · obtain ⟨register, hregister, below⟩ := h.hallOfClient c s old
      obtain ⟨after, hafter, -, le⟩ := move.register hregister
      exact ⟨after, hafter, Nat.lt_of_lt_of_le below le⟩
    · exact made.furnished.1
  queueOfClient c s found := by
    rcases move.standing_cases found with old | made
    · exact move.queueName (h.queueOfClient c s old)
    · exact made.furnished.2
  distinct c d s t hc hd hall sessionId := by
    rcases move.standing_cases hc with oldC | madeC
    · rcases move.standing_cases hd with oldD | madeD
      · exact h.distinct c d s t oldC oldD hall sessionId
      · exact absurd sessionId (h.sessionId_ne madeD oldC hall)
    · rcases move.standing_cases hd with oldD | madeD
      · exact absurd sessionId.symm (h.sessionId_ne madeC oldD hall.symm)
      · rw [madeC.ref, madeD.ref]
  hallOfRoom r room found := by
    have known : (w.register? room.hall).isSome := by
      rcases move.room_cases found with ⟨old, before, hall, -⟩ | made
      · rw [hall]
        exact h.hallOfRoom r old before
      · exact made.known
    obtain ⟨register, hregister⟩ := Option.isSome_iff_exists.1 known
    obtain ⟨after, hafter, -⟩ := move.register hregister
    exact Option.isSome_of_eq_some hafter
  queueOfRoom r room found := by
    rcases move.room_cases found with ⟨old, before, -, -, queue⟩ | made
    · obtain ⟨name, hname⟩ := Option.isSome_iff_exists.1 (h.queueOfRoom r old before)
      rw [queue]
      exact Option.isSome_of_eq_some (move.queueName hname)
    · rw [made.world, queueName?, pool_getOrCreateRoom made.absent, made.room, Option.isSome_map]
      exact h.named.getOrCreate_snd _
  registered i name r found := by
    rcases move.findRoom found with old | ⟨room, hroom, hall, hname, -⟩
    · obtain ⟨room, hroom, hall, hname⟩ := h.registered i name r old
      obtain ⟨after, hafter, sameHall, sameName, -⟩ := move.room hroom
      exact ⟨after, hafter, sameHall.trans hall, sameName.trans hname⟩
    · exact ⟨room, hroom, hall, hname⟩

theorem Furnished.moves (h : Furnished w) (moves : Moves w deeds v) : Furnished v := by
  induction moves with
  | refl => exact h
  | step _ last ih => exact ih.move last

end ChatHall.Server.World
