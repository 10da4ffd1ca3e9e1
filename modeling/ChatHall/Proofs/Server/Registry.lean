/-
# The register of rooms is safe

A room in which somebody is, or is about to be, is the registered one of its
name, however entrances, departures and clean-ups of old and new rooms follow
upon each other. Safety rests on the pending entrances: an entrance counts from
the moment it is asked for, and the room is struck off by a task of its own
queue, when all that was pushed before has been performed.
-/

import ChatHall.Proofs.Server.Course

namespace ChatHall.Server

theorem roomQueueName_injective {a b : String} (h : roomQueueName a = roomQueueName b) : a = b := by
  have chars := congrArg String.toList h
  simp only [roomQueueName, toString, String.toList_append] at chars
  apply String.toList_injective
  simpa using chars

/-- No queue of a session has the name of the queue of a room. -/
theorem roomQueueName_ne (room : String) (sessionId : Nat) :
    roomQueueName room ≠ sessionQueueName sessionId := by
  intro h
  have chars := congrArg String.toList h
  simp only [roomQueueName, sessionQueueName, toString, String.toList_append] at chars
  have first := congrArg List.head? chars
  change some 'r' = some 's' at first
  contradiction

namespace World

variable {w v u : World} {deeds : List Deed} {past : List (RoomRef × RoomTask)}

/-! ## Entrances that have not been taken back -/

/-- A player stays a member as long as no departure of that player is performed. -/
theorem find?_foldl_membersAfter {playerId : Nat} {tasks : List RoomTask}
    (stays : ∀ task ∈ tasks, task ≠ .leave playerId) {members : Table Nat ClientRef}
    (inside : (members.find? playerId).isSome) :
    ((tasks.foldl w.membersAfter members).find? playerId).isSome := by
  induction tasks generalizing members with
  | nil => exact inside
  | cons task later ih =>
      apply ih fun t mem => stays t (List.mem_cons_of_mem _ mem)
      cases task with
      | enter c =>
          rw [membersAfter]
          split
          · rw [Table.find?_insert]
            split
            · rfl
            · exact inside
          · exact inside
      | leave other =>
          have different : playerId ≠ other := by
            rintro rfl
            exact stays _ List.mem_cons_self rfl
          rw [membersAfter, Table.find?_erase, if_neg different]
          exact inside
      | _ => exact inside

theorem isVacant_eq_false_of_member {room : Room} (counted : room.memberCount = room.members.size)
    {playerId : Nat} (inside : (room.members.find? playerId).isSome) : room.isVacant = false := by
  apply eq_false_of_ne_true
  intro vacant
  have none_inside := (isVacant_iff.1 vacant).1
  rw [counted] at none_inside
  exact absurd (Table.size_pos_of_find? inside) (none_inside ▸ Nat.lt_irrefl 0)

theorem Orderly.isVacant_eq_false_of_queued (orderly : Orderly past w) {r : RoomRef} {room : Room}
    (found : w.room? r = some room) {c : ClientRef} (entering : .enter c ∈ w.queued r) :
    room.isVacant = false := by
  apply eq_false_of_ne_true
  intro vacant
  have none_pending := (isVacant_iff.1 vacant).2
  rw [orderly.pending r room found] at none_pending
  exact absurd rfl (List.countP_eq_zero.1 none_pending _ entering)

/-- A room is not vacant while the departure that goes with an entrance is outstanding. -/
theorem Orderly.isVacant_eq_false_of_entered (orderly : Orderly past w) {r : RoomRef} {room : Room}
    (found : w.room? r = some room) {c : ClientRef} {s : Standing} (client : w.standing? c = some s)
    {i : Nat} (entered : (history past w r)[i]? = some (.enter c))
    (stays : ∀ j, i < j → (tasksOf r past)[j]? ≠ some (.leave s.sessionId)) :
    room.isVacant = false := by
  rw [history, List.getElem?_append] at entered
  split at entered
  · next performed =>
      obtain ⟨_, task⟩ := List.getElem?_eq_some_iff.1 entered
      have inside : (room.members.find? s.sessionId).isSome := by
        rw [orderly.members r room found, ← List.take_append_drop i (tasksOf r past),
          List.drop_eq_getElem_cons performed, task, List.foldl_append, List.foldl_cons]
        apply find?_foldl_membersAfter
        · rintro other mem rfl
          obtain ⟨k, hk⟩ := List.getElem?_of_mem mem
          rw [List.getElem?_drop] at hk
          exact stays _ (by omega) hk
        · rw [membersAfter, client, Table.find?_insert, if_pos rfl]
          rfl
      exact isVacant_eq_false_of_member (orderly.memberCount r room found) inside
  · exact orderly.isVacant_eq_false_of_queued found (List.mem_of_getElem? entered)

/-! ## The names of the queues -/

/-- A room has been given up between two worlds, in the second of which it is this one: it is not
registered any more, or it has been made meanwhile and is not registered. -/
def GivesUp (w v : World) (r : RoomRef) (room : Room) : Prop :=
  v.findRoom? room.hall room.name ≠ some r ∧
    (w.room? r = none ∨ w.findRoom? room.hall room.name = some r)

/-- What is registered under a name of a queue stays, unless another hall gives up a room of the
same name. -/
theorem Move.find?_roomQueueName (move : Move w deeds v) (furnished : Furnished w) {h : HallRef}
    {name : String} {r : RoomRef} {q : Jobs.QueueRef} (after : v.findRoom? h name = some r)
    (stands : w.pool.find? (roomQueueName name) = some q)
    (spared : ∀ s other, v.room? s = some other → other.name = name → other.hall ≠ h →
      ¬ GivesUp w v s other) :
    v.pool.find? (roomQueueName name) = some q := by
  cases move with
  | quiet quiet => exact (quiet.find? _).trans stands
  | openHall => exact stands
  | makeRoom k asked known absent =>
      rw [pool_getOrCreateRoom absent, Jobs.Pool.find?_getOrCreate]
      split
      · next same => rw [← same, Jobs.Pool.getOrCreate, stands]
      · exact stands
  | newClient k hall found =>
      rw [pool_newClient found]
      exact stands
  | name c client found =>
      obtain ⟨queue, known, named⟩ := Option.map_eq_some_iff.1
        (furnished.queueOfClient c _ (standing?_of_client found))
      have registered := Jobs.Pool.find?_register known (roomQueueName name)
      rw [named, if_neg (roomQueueName_ne name _)] at registered
      exact registered.trans stands
  | unname sessionId =>
      have removed := Jobs.Pool.find?_remove (p := w.pool) (sessionQueueName sessionId)
        (roomQueueName name)
      rw [if_neg (roomQueueName_ne name _)] at removed
      exact removed.trans stands
  | enter k asked s c => exact (find?_pushToRoom _ s (.enter c) _).trans stands
  | push s _ task => exact (find?_pushToRoom w s task _).trans stands
  | strike q s room agenda found registered =>
      have removed := Jobs.Pool.find?_remove (p := w.pool) (roomQueueName room.name)
        (roomQueueName name)
      have struck := findRoom?_strike w room
      have different : roomQueueName name ≠ roomQueueName room.name := by
        intro same
        obtain rfl := roomQueueName_injective same
        have gone := (struck room.hall room.name).trans (if_pos ⟨rfl, rfl⟩)
        refine spared s room found rfl ?_ ⟨gone ▸ (Option.some_ne_none s).symm, .inr registered⟩
        rintro rfl
        rw [gone] at after
        contradiction
      rw [if_neg different] at removed
      exact removed.trans stands
  | run => exact stands

/-- A room that is not registered will not be. -/
theorem Move.unregistered (move : Move w deeds v) {r : RoomRef} {room : Room}
    (found : w.room? r = some room) {h : HallRef} {name : String}
    (off : w.findRoom? h name ≠ some r) : v.findRoom? h name ≠ some r := by
  intro registered
  rcases move.findRoom registered with old | ⟨_, -, -, -, made⟩
  · exact off old
  · exact ne_length_of_room found made.ref

theorem Moves.unregistered (moves : Moves w deeds v) {r : RoomRef} {room : Room}
    (found : w.room? r = some room) {h : HallRef} {name : String}
    (off : w.findRoom? h name ≠ some r) : v.findRoom? h name ≠ some r := by
  induction moves with
  | refl => exact off
  | step moves last ih =>
      obtain ⟨_, there, -⟩ := moves.extends.room r room found
      exact last.unregistered there ih

/-- What is given up before a move is given up. -/
theorem GivesUp.before {r : RoomRef} {room after : Room} (h : GivesUp w u r room)
    (move : Move u deeds v) (found : u.room? r = some room) (hall : after.hall = room.hall)
    (name : after.name = room.name) : GivesUp w v r after := by
  rw [GivesUp, hall, name]
  exact ⟨move.unregistered found h.1, h.2⟩

/-- What is given up by a move is given up. -/
theorem GivesUp.last {r : RoomRef} {room : Room} (h : GivesUp u v r room) (moves : Moves w deeds u) :
    GivesUp w v r room := by
  refine ⟨h.1, ?_⟩
  cases found : w.room? r with
  | none => exact .inl rfl
  | some before =>
      right
      obtain ⟨_, there, -⟩ := moves.extends.room r before found
      rcases h.2 with new | registered
      · rw [there] at new
        contradiction
      · by_contra off
        exact moves.unregistered found off registered

/-- A registered room has its queue under its name if it had, unless another hall gives up a room
of the same name. -/
theorem Moves.find?_roomQueueName (moves : Moves w deeds v) (furnished : Furnished w) {h : HallRef}
    {name : String} {r : RoomRef} {room : Room} (registered : v.findRoom? h name = some r)
    (found : v.room? r = some room)
    (before : w.findRoom? h name = some r → w.pool.find? (roomQueueName name) = some room.queue)
    (spared : ∀ s other, v.room? s = some other → other.name = name → other.hall ≠ h →
      ¬ GivesUp w v s other) :
    v.pool.find? (roomQueueName name) = some room.queue := by
  induction moves generalizing room with
  | refl => exact before registered
  | step moves last ih =>
      rcases last.findRoom registered with old | ⟨same, hsame, -, hname, made⟩
      · obtain ⟨mid, hmid, -, -⟩ := (furnished.moves moves).registered h name r old
        obtain ⟨same, hsame, -, -, queue⟩ := last.room hmid
        obtain rfl := Option.some.inj (hsame.symm.trans found)
        rw [queue] at before ⊢
        have stands := ih old hmid before fun s other there named elsewhere gives => by
          obtain ⟨after, hafter, hall, name, -⟩ := last.room there
          exact spared s after hafter (name.trans named) (hall ▸ elsewhere)
            (gives.before last there hall name)
        exact last.find?_roomQueueName (furnished.moves moves) registered stands
          fun s other there named elsewhere gives =>
            spared s other there named elsewhere (gives.last moves)
      · obtain rfl := Option.some.inj (hsame.symm.trans found)
        rw [made.world, pool_getOrCreateRoom made.absent, Jobs.Pool.find?_getOrCreate, ← hname,
          if_pos rfl, made.room]

/-- The name of a registered room's queue stands for the queue of that room, unless rooms of other
halls have had the same name. -/
def RoomsKeyed (w : World) : Prop :=
  ∀ h name r room, w.findRoom? h name = some r → w.room? r = some room →
    (∀ s other, w.room? s = some other → other.name = name → other.hall = h) →
    w.pool.find? (roomQueueName name) = some room.queue

theorem RoomsKeyed.moves (h : RoomsKeyed w) (furnished : Furnished w) (moves : Moves w deeds v) :
    RoomsKeyed v := by
  intro i name r room registered found own
  refine moves.find?_roomQueueName furnished registered found (fun before => ?_)
    fun s other there named elsewhere => absurd (own s other there named) elsewhere
  obtain ⟨old, hold, -, -⟩ := furnished.registered i name r before
  obtain ⟨same, hsame, -, -, queue⟩ := moves.extends.room r old hold
  obtain rfl := Option.some.inj (hsame.symm.trans found)
  rw [queue]
  refine h i name r old before hold fun s other there named => ?_
  obtain ⟨after, hafter, hall, name, -⟩ := moves.extends.room s other there
  exact hall ▸ own s after hafter (name.trans named)

/-- A room that is registered has its queue under its name in every course of events. -/
theorem roomsKeyed_of_course {defaultRooms : List String} {events : List Event}
    (course : (opened defaultRooms).afterAll? events = some w) : RoomsKeyed w := by
  let P (past : List (RoomRef × RoomTask)) (w : World) : Prop := InOrder past w ∧ RoomsKeyed w
  have start : P [] (opened defaultRooms) := by
    have nothing : RoomsKeyed empty := fun _ _ _ _ registered => nomatch registered
    exact ⟨inOrder_opened _, nothing.moves furnished_empty (moves_opened defaultRooms)⟩
  refine (course_induction (P := P) ?_ start course).2
  rintro past w e v - ⟨inOrder, keyed⟩ after
  obtain ⟨deeds, change⟩ := change_of_after? inOrder.furnished after
  exact ⟨inOrder.after after, keyed.moves inOrder.furnished change.moves⟩

/-- With one hall, the name of a registered room's queue stands for the queue of that room. -/
structure Keyed (w : World) : Prop where
  alone : ∀ h, (w.register? h).isSome → h = 0
  key : ∀ name r room, w.findRoom? 0 name = some r → w.room? r = some room →
    w.pool.find? (roomQueueName name) = some room.queue

theorem RoomsKeyed.keyed (h : RoomsKeyed w) (furnished : Furnished w)
    (alone : ∀ h, (w.register? h).isSome → h = 0) : Keyed w where
  alone := alone
  key name r room registered found :=
    h 0 name r room registered found fun s other there _ =>
      alone other.hall (furnished.hallOfRoom s other there)

theorem Keyed.roomsKeyed (h : Keyed w) : RoomsKeyed w := by
  intro i name r room registered found _
  have there : (w.register? i).isSome := by
    rw [findRoom?_eq] at registered
    obtain ⟨register, known, -⟩ := Option.bind_eq_some_iff.1 registered
    exact Option.isSome_of_eq_some known
  obtain rfl := h.alone i there
  exact h.key name r room registered found

theorem Extends.alone (ext : Extends w v) (alone : ∀ h, (v.register? h).isSome → h = 0) :
    ∀ h, (w.register? h).isSome → h = 0 := by
  intro h there
  obtain ⟨register, found⟩ := Option.isSome_iff_exists.1 there
  obtain ⟨after, hafter, -⟩ := ext.register h register found
  exact alone h (Option.isSome_of_eq_some hafter)

theorem Keyed.moves (h : Keyed w) (furnished : Furnished w) (moves : Moves w deeds v)
    (alone : ∀ h, (v.register? h).isSome → h = 0) : Keyed v :=
  (h.roomsKeyed.moves furnished moves).keyed (furnished.moves moves) alone

/-! ## The default room -/

/-- A default room is not asked to be given up, so it is not struck off. -/
theorem InOrder.findRoom?_defaultRoom (h : InOrder past w) (moves : Moves w deeds v) {i : HallRef}
    {register : Register} {r : RoomRef} (hall : w.register? i = some register)
    (found : w.findRoom? i register.defaultRoom = some r) :
    v.findRoom? i register.defaultRoom = some r := by
  induction moves with
  | refl => exact found
  | step moves last ih =>
      rcases last.findRoom_stays ih with stays | ⟨-, condemned⟩
      · exact stays
      · obtain ⟨room, hroom, rfl, name, -⟩ := condemned.room
        obtain ⟨q, agenda, owes, asked⟩ := condemned.asked
        obtain ⟨after, hafter, default, -⟩ := moves.extends.register _ register hall
        have spares := ((h.moves moves).orderly.fits q agenda owes _ asked).spares rfl
        exact absurd (name.trans default.symm) (spares room after hroom hafter)

/-- Nor is it in any course of events. -/
theorem InOrder.defaultRoom_of_course (h : InOrder past w) {i : HallRef} {register : Register}
    {r : RoomRef} {events : List Event} (hall : w.register? i = some register)
    (found : w.findRoom? i register.defaultRoom = some r)
    (course : w.afterAll? events = some v) : v.findRoom? i register.defaultRoom = some r := by
  let P (past : List (RoomRef × RoomTask)) (v : World) : Prop :=
    InOrder past v ∧ v.findRoom? i register.defaultRoom = some r ∧
      ∃ now, v.register? i = some now ∧ now.defaultRoom = register.defaultRoom
  refine (course_induction (P := P) ?_ ⟨h, found, register, hall, rfl⟩ course).2.1
  rintro past u e v - ⟨inOrder, there, now, hnow, same⟩ after
  obtain ⟨deeds, change⟩ := change_of_after? inOrder.furnished after
  obtain ⟨last, hlast, kept, -⟩ := change.moves.extends.register i now hnow
  rw [← same] at there
  have stays := inOrder.findRoom?_defaultRoom change.moves hnow there
  rw [same] at stays kept
  exact ⟨inOrder.after after, stays, last, hlast, kept⟩

/-! ## The register along a course -/

/-- What everybody may rely on in a hall that has its queues for itself, once these tasks have
been performed. -/
structure Safe (defaultRoom : String) (past : List (RoomRef × RoomTask)) (w : World) : Prop where
  /-- A room into which a client has been put is what its name stands for, as long as no
  departure of that player that was pushed after the entrance has been performed. -/
  entered : ∀ (r : RoomRef) (room : Room) (c : ClientRef) (client : Client) (i : Nat),
    w.room? r = some room → w.client? c = some client →
    (history past w r)[i]? = some (.enter c) →
    (∀ j, i < j → (tasksOf r past)[j]? ≠ some (.leave client.sessionId)) →
    w.findRoom? 0 room.name = some r
  /-- So is a room that has a member or a queued entrance. -/
  taken : ∀ r room, w.room? r = some room →
    (0 < room.members.size ∨ ∃ c, .enter c ∈ w.queued r) → w.findRoom? 0 room.name = some r
  /-- The name of the queue of a registered room stands for the queue of that room. -/
  keyed : ∀ name r, w.findRoom? 0 name = some r →
    ∃ room, w.room? r = some room ∧ room.name = name ∧
      w.pool.find? (roomQueueName name) = some room.queue
  /-- The default room stays what it is whatever happens later. -/
  default_stays : ∀ r later v, w.findRoom? 0 defaultRoom = some r →
    w.afterAll? later = some v → v.findRoom? 0 defaultRoom = some r
  pending : ∀ r room, w.room? r = some room →
    room.pendingEnters = (w.queued r).countP RoomTask.isEnter
  /-- An entrance that is performed was pending. -/
  no_underflow : ∀ e r c, w.performs? e = some (r, .enter c) →
    ∃ room, w.room? r = some room ∧ 0 < room.pendingEnters
  memberCount : ∀ r room, w.room? r = some room → room.memberCount = room.members.size

theorem register?_opened (defaultRoom : String) (h : HallRef) :
    (opened [defaultRoom]).register? h = if h = 0 then some ⟨defaultRoom, {}, 1⟩ else none :=
  register?_openHall empty defaultRoom h

theorem keyed_opened (defaultRoom : String) : Keyed (opened [defaultRoom]) where
  alone h there := by
    rw [register?_opened] at there
    split at there
    · assumption
    · contradiction
  key name r room registered := nomatch registered

/-- Courses keep what has been opened and, as long as there is one hall, the names. -/
theorem keyed_of_course {defaultRoom : String} {events : List Event}
    (course : (opened [defaultRoom]).afterAll? events = some w) :
    (∃ register, w.register? 0 = some register ∧ register.defaultRoom = defaultRoom) ∧
      ((∀ h, (w.register? h).isSome → h = 0) → Keyed w) := by
  let P (past : List (RoomRef × RoomTask)) (w : World) : Prop :=
    InOrder past w ∧
      ∃ register, w.register? 0 = some register ∧ register.defaultRoom = defaultRoom
  have start : P [] (opened [defaultRoom]) :=
    ⟨inOrder_opened _, _, register?_opened defaultRoom 0, rfl⟩
  have kept : P ([] ++ (opened [defaultRoom]).performed events) w := by
    refine course_induction (P := P) ?_ start course
    rintro past w e v - ⟨inOrder, register, hall, default⟩ after
    obtain ⟨deeds, change⟩ := change_of_after? inOrder.furnished after
    obtain ⟨later, hlater, same, -⟩ := change.moves.extends.register 0 register hall
    exact ⟨inOrder.after after, later, hlater, same.trans default⟩
  exact ⟨kept.2, (roomsKeyed_of_course course).keyed kept.1.furnished⟩

/-- In every course of events of a single hall that has its queues for itself, the register of
rooms is safe. -/
theorem safe_of_course (defaultRoom : String) (events : List Event) (w : World)
    (course : (opened [defaultRoom]).afterAll? events = some w)
    (alone : w.state.halls.length = 1) :
    Safe defaultRoom ((opened [defaultRoom]).performed events) w := by
  have inOrder := inOrder_of_opened course
  obtain ⟨⟨register, hall, default⟩, keyed⟩ := keyed_of_course course
  have key := keyed fun h there => by
    rw [register?, Option.isSome_map, hall?, isSome_getElem?, alone] at there
    exact Nat.lt_one_iff.1 there
  have hall_zero {r : RoomRef} {room : Room} (found : w.room? r = some room) : room.hall = 0 :=
    key.alone _ (inOrder.furnished.hallOfRoom r room found)
  exact {
    entered := fun r room c client i found known entered stays => by
      have occupied := inOrder.orderly.occupied r room found
        (inOrder.orderly.isVacant_eq_false_of_entered found (standing?_of_client known) entered
          stays)
      rwa [hall_zero found] at occupied
    taken := fun r room found someone => by
      have occupied := inOrder.orderly.occupied r room found
      rw [hall_zero found] at occupied
      apply occupied
      rcases someone with inside | ⟨c, entering⟩
      · apply eq_false_of_ne_true
        intro vacant
        have none_inside := (isVacant_iff.1 vacant).1
        rw [inOrder.orderly.memberCount r room found] at none_inside
        exact absurd none_inside (Nat.ne_of_gt inside)
      · exact inOrder.orderly.isVacant_eq_false_of_queued found entering
    keyed := fun name r registered => by
      obtain ⟨room, found, -, named⟩ := inOrder.furnished.registered 0 name r registered
      exact ⟨room, found, named, key.key name r room registered found⟩
    default_stays := fun r later v found rest => by
      subst default
      exact inOrder.defaultRoom_of_course hall found rest
    pending := inOrder.orderly.pending
    no_underflow := fun e r c performs => by
      obtain ⟨room, rest, found, queued⟩ := inOrder.queued_of_performs? performs
      refine ⟨room, found, ?_⟩
      rw [inOrder.orderly.pending r room found, queued, List.countP_cons_of_pos rfl]
      exact Nat.succ_pos _
    memberCount := inOrder.orderly.memberCount }

/-- A player enters, leaves, and asks to enter again before the clean-up is performed. -/
def revolvingDoor : List Event :=
  [.room 0 "lobby", .accept 0, .enterRoom 0 "arena" 0, .leaveRoom 1 1, .enterRoom 0 "arena" 0,
    .work 2 0, .work 2 0, .work 2 0, .work 2 0, .work 2 0, .work 2 0]

/-- The clean-up has been performed, and the room is still there for the second entrance. -/
theorem safe_of_course_revolvingDoor :
    ∃ w, (opened ["lobby"]).afterAll? revolvingDoor = some w ∧ w.state.halls.length = 1 ∧
      (.tidy ∈ tasksOf 1 ((opened ["lobby"]).performed revolvingDoor)) ∧
      w.findRoom? 0 "arena" = some 1 := by
  have possible : ((opened ["lobby"]).afterAll? revolvingDoor).isSome := by decide +kernel
  obtain ⟨w, course⟩ := Option.isSome_iff_exists.1 possible
  have halls : ((opened ["lobby"]).afterAll? revolvingDoor).map (·.state.halls.length) = some 1 := by
    decide +kernel
  have entering : ((opened ["lobby"]).afterAll? revolvingDoor).map
      (fun w => ((w.room? 1).map Room.name, w.queued 1)) = some (some "arena", [.enter 0]) := by
    decide +kernel
  rw [course, Option.map_some] at halls entering
  obtain ⟨hname, hqueued⟩ := Prod.mk.inj (Option.some.inj entering)
  obtain ⟨room, found, name⟩ := Option.map_eq_some_iff.1 hname
  have alone := Option.some.inj halls
  have safe := safe_of_course "lobby" revolvingDoor w course alone
  have registered := safe.taken 1 room found (.inr ⟨0, hqueued ▸ List.mem_cons_self⟩)
  exact ⟨w, course, alone, by decide +kernel, name ▸ registered⟩

end World

end ChatHall.Server
