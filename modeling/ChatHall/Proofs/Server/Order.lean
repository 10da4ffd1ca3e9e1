/-
# The rooms keep what they owe

The history of a room is what has been performed in it, followed by what is
still queued for it: pushes make it longer, and whatever is performed is the
oldest of what was queued. The members of a room are those that its performed
tasks leave, its pending entrances are the queued ones, and a room in which
somebody is or is about to be is the registered one of its name.
-/

import ChatHall.Proofs.Server.Furnished

namespace ChatHall.Server

def RoomTask.isEnter : RoomTask → Bool
  | enter _ => true
  | _ => false

namespace World

variable {w v u : World} {deeds : List Deed} {past : List (RoomRef × RoomTask)}

/-! ## Agendas -/

theorem agenda?_isSome (w : World) (q : Jobs.QueueRef) :
    (w.agenda? q).isSome = (w.queueName? q).isSome := by
  rw [agenda?, queueName?, Option.isSome_map, Option.isSome_map]

theorem agenda?_pushToRoom {r : RoomRef} {room : Room} (found : w.room? r = some room)
    (task : RoomTask) (q : Jobs.QueueRef) :
    (w.pushToRoom r task).agenda? q =
      if room.queue = q then (w.agenda? q).map (· ++ [(r, task)]) else w.agenda? q := by
  rw [pushToRoom_of_room found]
  exact agenda?_push w room.queue q (.room r task)

theorem agenda?_pushEnter {r : RoomRef} {room : Room} (found : w.room? r = some room)
    (c : ClientRef) (q : Jobs.QueueRef) :
    (w.pushEnter r c).agenda? q =
      if room.queue = q then (w.agenda? q).map (· ++ [(r, .enter c)]) else w.agenda? q := by
  have changed := room?_modifyRoom w r r fun room =>
    { room with pendingEnters := room.pendingEnters + 1 }
  rw [if_pos rfl, found] at changed
  rw [pushEnter]
  exact agenda?_pushToRoom changed (.enter c) q

/-- What a drain performs is the oldest entry of its queue's agenda. -/
theorem agenda?_run (serial : w.pool.Serial) {q : Jobs.QueueRef} {i : Nat} {r : RoomRef}
    {task : RoomTask} {queue : Jobs.Queue Job} (found : w.pool.queue? q = some queue)
    (executes : queue.drains[i]? = some (.executing (.room r task))) (f : Room → Room) :
    ∃ rest, w.agenda? q = some ((r, task) :: rest) ∧
      ∀ k, agenda? ((w.modifyRoom r f).updatePool (·.modify q (·.finish i (.ok ())))) k =
        if q = k then some rest else w.agenda? k := by
  have done := (serial q queue found).outstanding_finish executes (.ok ())
  refine ⟨(queue.finish i (.ok ())).outstanding.filterMap Job.roomTask?, ?_, fun k => ?_⟩
  · rw [agenda?, found, Option.map_some, done]
    rfl
  · have changed := Jobs.Pool.queue?_modify (p := w.pool) q k fun queue => queue.finish i (.ok ())
    by_cases here : q = k
    · rw [if_pos here, ← here, found] at changed
      rw [if_pos here, ← here]
      exact congrArg (Option.map _) changed
    · rw [if_neg here] at changed
      rw [if_neg here]
      exact congrArg (Option.map _) changed

/-- A move that does nothing for a room leaves the agendas, and makes empty ones. -/
theorem Move.agenda?_of_idle (move : Move w [] v) (q : Jobs.QueueRef) :
    v.agenda? q = w.agenda? q ∨ w.agenda? q = none ∧ v.agenda? q = some [] := by
  cases move with
  | quiet quiet => exact .inl (quiet.agenda? q)
  | openHall => exact .inl rfl
  | makeRoom h name _ absent =>
      rw [agenda?, agenda?, pool_getOrCreateRoom absent]
      rcases Jobs.Pool.queue?_getOrCreate (p := w.pool) (roomQueueName name) q with same | new
      · exact .inl (congrArg _ same)
      · right
        rw [new.1, new.2]
        exact ⟨rfl, rfl⟩
  | newClient h hall found =>
      rw [agenda?, agenda?, pool_newClient found, Jobs.Pool.queue?_create]
      split
      · next new =>
          right
          rw [new, Jobs.Pool.queue?_length]
          exact ⟨rfl, rfl⟩
      · exact .inl rfl
  | name c client =>
      left
      exact congrArg (Option.map _) (Jobs.Pool.queue?_register client.queue q)
  | unname => exact .inl rfl
  | strike => exact .inl rfl

/-! ## The invariant -/

/-- A task that is in order where it stands. -/
structure Fits (w : World) (e : RoomRef × RoomTask) : Prop where
  room : (w.room? e.1).isSome
  entrant : ∀ c, e.2 = .enter c → (w.standing? c).isSome
  /-- A default room is not asked to be given up. -/
  spares : e.2 = .tidy → ∀ room register, w.room? e.1 = some room →
    w.register? room.hall = some register → room.name ≠ register.defaultRoom

theorem Fits.extends {e : RoomRef × RoomTask} (h : Fits w e) (furnished : Furnished w)
    (ext : Extends w v) : Fits v e := by
  obtain ⟨room, found⟩ := Option.isSome_iff_exists.1 h.room
  obtain ⟨after, hafter, hall, name, -⟩ := ext.room e.1 room found
  refine ⟨Option.isSome_of_eq_some hafter, fun c entered => ?_, fun tidies => ?_⟩
  · obtain ⟨s, hs⟩ := Option.isSome_iff_exists.1 (h.entrant c entered)
    exact Option.isSome_of_eq_some (ext.standing c s hs)
  · intro same register hsame hregister
    obtain rfl := Option.some.inj (hafter.symm.trans hsame)
    obtain ⟨before, hbefore⟩ := Option.isSome_iff_exists.1 (furnished.hallOfRoom e.1 room found)
    obtain ⟨now, hnow, default, -⟩ := ext.register room.hall before hbefore
    rw [hall, hnow] at hregister
    obtain rfl := Option.some.inj hregister
    rw [name, default]
    exact h.spares tidies room before found hbefore

/-- What the queues owe the rooms, and what the rooms are after what has been performed. -/
structure Orderly (past : List (RoomRef × RoomTask)) (w : World) : Prop where
  placed : ∀ q agenda, w.agenda? q = some agenda → ∀ e ∈ agenda,
    ∃ room, w.room? e.1 = some room ∧ room.queue = q
  fits : ∀ q agenda, w.agenda? q = some agenda → ∀ e ∈ agenda, Fits w e
  fitted : ∀ e ∈ past, Fits w e
  pending : ∀ r room, w.room? r = some room →
    room.pendingEnters = (w.queued r).countP RoomTask.isEnter
  members : ∀ r room, w.room? r = some room →
    room.members = (tasksOf r past).foldl w.membersAfter {}
  memberCount : ∀ r room, w.room? r = some room → room.memberCount = room.members.size
  occupied : ∀ r room, w.room? r = some room → room.isVacant = false →
    w.findRoom? room.hall room.name = some r

/-! ## The agendas after a move -/

/-- A move leaves the agendas, adds one entry to one of them, or takes the oldest off. -/
inductive AgendaChange (w v : World) : List Deed → Prop
  | idle (same : ∀ q, v.agenda? q = w.agenda? q ∨ w.agenda? q = none ∧ v.agenda? q = some []) :
      AgendaChange w v []
  | pushed (r : RoomRef) (room : Room) (task : RoomTask) (found : w.room? r = some room)
      (fits : Fits w (r, task))
      (changed : ∀ q, v.agenda? q =
        if room.queue = q then (w.agenda? q).map (· ++ [(r, task)]) else w.agenda? q) :
      AgendaChange w v [.push r task]
  | ran (q : Jobs.QueueRef) (r : RoomRef) (task : RoomTask) (rest : List (RoomRef × RoomTask))
      (oldest : w.agenda? q = some ((r, task) :: rest))
      (changed : ∀ k, v.agenda? k = if q = k then some rest else w.agenda? k) :
      AgendaChange w v [.run r task]

theorem Move.agendaChange (move : Move w deeds v) (furnished : Furnished w) :
    AgendaChange w v deeds := by
  cases move with
  | quiet quiet => exact .idle (Move.quiet quiet).agenda?_of_idle
  | openHall => exact .idle (Move.openHall ..).agenda?_of_idle
  | makeRoom h name known absent =>
      exact .idle (Move.makeRoom _ h name known absent).agenda?_of_idle
  | newClient h hall found => exact .idle (Move.newClient _ h hall found).agenda?_of_idle
  | name c client found => exact .idle (Move.name _ c client found).agenda?_of_idle
  | unname => exact .idle (Move.unname ..).agenda?_of_idle
  | strike q r room agenda found registered vacant owes asked =>
      exact .idle (Move.strike _ q r room agenda found registered vacant owes asked).agenda?_of_idle
  | enter h name r c registered known =>
      obtain ⟨room, found, -, -⟩ := furnished.registered h name r registered
      refine .pushed r room (.enter c) found ⟨Option.isSome_of_eq_some found, ?_, fun tidies => ?_⟩
        (agenda?_pushEnter found c)
      · intro d same
        obtain rfl := RoomTask.enter.inj same
        exact known
      · contradiction
  | push r room task found other spares =>
      refine .pushed r room task found
        ⟨Option.isSome_of_eq_some found, fun c same => absurd same (other c), ?_⟩
        (agenda?_pushToRoom found task)
      intro tidies same register hsame
      obtain rfl := Option.some.inj (found.symm.trans hsame)
      exact spares tidies register
  | run q i r task queue found executes =>
      obtain ⟨rest, oldest, changed⟩ :=
        agenda?_run furnished.serial found executes (w.roomAfter task)
      exact .ran q r task rest oldest changed

/-- An entry of an agenda was there before a move or has been pushed by it. -/
theorem Move.mem_agenda (move : Move w deeds v) (furnished : Furnished w) {q : Jobs.QueueRef}
    {agenda : List (RoomRef × RoomTask)} {e : RoomRef × RoomTask} (owes : v.agenda? q = some agenda)
    (listed : e ∈ agenda) :
    (∃ before, w.agenda? q = some before ∧ e ∈ before) ∨
      (∃ room, w.room? e.1 = some room ∧ room.queue = q) ∧ Fits w e := by
  cases move.agendaChange furnished with
  | idle same =>
      rcases same q with same | ⟨-, empty⟩
      · exact .inl ⟨agenda, same.symm.trans owes, listed⟩
      · obtain rfl := Option.some.inj (empty.symm.trans owes)
        contradiction
  | pushed r room task found fits changed =>
      rw [changed q] at owes
      split at owes
      · next here =>
          obtain ⟨before, hbefore, rfl⟩ := Option.map_eq_some_iff.1 owes
          rcases List.mem_append.1 listed with old | new
          · exact .inl ⟨before, hbefore, old⟩
          · obtain rfl := List.mem_singleton.1 new
            exact .inr ⟨⟨room, found, here⟩, fits⟩
      · exact .inl ⟨agenda, owes, listed⟩
  | ran k r task rest oldest changed =>
      left
      rw [changed q] at owes
      split at owes
      · next here =>
          obtain rfl := Option.some.inj owes
          exact ⟨_, here ▸ oldest, List.mem_cons_of_mem _ listed⟩
      · exact ⟨agenda, owes, listed⟩

/-- A move does something only for rooms that are there. -/
theorem Move.deed_fits (move : Move w deeds v) (furnished : Furnished w)
    (orderly : Orderly past w) : ∀ e ∈ pushedIn deeds ++ ranIn deeds, Fits w e := by
  intro e done
  cases move.agendaChange furnished with
  | idle => contradiction
  | pushed r room task found fits =>
      obtain rfl := List.mem_singleton.1 done
      exact fits
  | ran q r task rest oldest =>
      obtain rfl := List.mem_singleton.1 done
      exact orderly.fits q _ oldest _ List.mem_cons_self

/-! ## Histories -/

theorem queued_of_agenda {r : RoomRef} {room : Room} {agenda : List (RoomRef × RoomTask)}
    (found : w.room? r = some room) (owes : w.agenda? room.queue = some agenda) :
    w.queued r = tasksOf r agenda := by
  rw [queued_of_room found, owes]
  rfl

/-- Every task that is queued for a room stands on the agenda of its queue. -/
theorem Furnished.queued_eq (h : Furnished w) {r : RoomRef} {room : Room}
    (found : w.room? r = some room) :
    ∃ agenda, w.agenda? room.queue = some agenda ∧ w.queued r = tasksOf r agenda := by
  have owes : (w.agenda? room.queue).isSome := by
    rw [agenda?_isSome]
    exact h.queueOfRoom r room found
  obtain ⟨agenda, howes⟩ := Option.isSome_iff_exists.1 owes
  exact ⟨agenda, howes, queued_of_agenda found howes⟩

theorem tasksOf_eq_nil {r : RoomRef} {entries : List (RoomRef × RoomTask)}
    (elsewhere : ∀ e ∈ entries, e.1 ≠ r) : tasksOf r entries = [] := by
  apply List.filterMap_eq_nil_iff.2
  intro e listed
  exact if_neg (elsewhere e listed)

/-- Nothing is queued for a room that has just been made. -/
theorem Move.queued_of_missing (move : Move w deeds v) (furnished : Furnished w)
    (orderly : Orderly past w) {r : RoomRef} (missing : w.room? r = none) : v.queued r = [] := by
  cases after : v.room? r with
  | none => exact queued_of_none after
  | some room =>
      obtain ⟨agenda, owes, queued⟩ := (furnished.move move).queued_eq after
      rw [queued]
      apply tasksOf_eq_nil
      rintro e listed rfl
      have there : ∃ room, w.room? e.1 = some room := by
        rcases move.mem_agenda furnished owes listed with ⟨before, hbefore, mem⟩ | ⟨pushed, -⟩
        · obtain ⟨old, found, -⟩ := orderly.placed _ before hbefore e mem
          exact ⟨old, found⟩
        · obtain ⟨old, found, -⟩ := pushed
          exact ⟨old, found⟩
      obtain ⟨old, found⟩ := there
      rw [missing] at found
      contradiction

/-- A move pushes to the end of what is queued for a room, and performs from its front. -/
theorem Move.queued (move : Move w deeds v) (furnished : Furnished w) (orderly : Orderly past w)
    (r : RoomRef) :
    w.queued r ++ tasksOf r (pushedIn deeds) = tasksOf r (ranIn deeds) ++ v.queued r := by
  cases before : w.room? r with
  | none =>
      have elsewhere : ∀ e ∈ pushedIn deeds ++ ranIn deeds, e.1 ≠ r := by
        rintro e done rfl
        have there := (move.deed_fits furnished orderly e done).room
        rw [before] at there
        contradiction
      have pushes := tasksOf_eq_nil fun e listed => elsewhere e (List.mem_append_left _ listed)
      have runs := tasksOf_eq_nil fun e listed => elsewhere e (List.mem_append_right _ listed)
      rw [queued_of_none before, pushes, runs, move.queued_of_missing furnished orderly before]
  | some room =>
      obtain ⟨after, hafter, -, -, hqueue⟩ := move.room before
      obtain ⟨agenda, owes, queued⟩ := furnished.queued_eq before
      have now {later : List (RoomRef × RoomTask)} (h : v.agenda? room.queue = some later) :
          v.queued r = tasksOf r later := queued_of_agenda hafter (hqueue ▸ h)
      cases move.agendaChange furnished with
      | idle same =>
          rcases same room.queue with same | ⟨missing, -⟩
          · rw [queued, now (same.trans owes)]
            exact List.append_nil _
          · rw [owes] at missing
            contradiction
      | pushed s target task found fits changed =>
          have here := changed room.queue
          rw [owes] at here
          change w.queued r ++ tasksOf r [(s, task)] = v.queued r
          split at here
          · rw [queued, now here, tasksOf_append]
          · next other =>
              have elsewhere : s ≠ r := by
                rintro rfl
                obtain rfl := Option.some.inj (before.symm.trans found)
                exact other rfl
              rw [queued, now here, tasksOf_cons, if_neg elsewhere, tasksOf_nil, List.append_nil]
      | ran q s task rest oldest changed =>
          have here := changed room.queue
          change w.queued r ++ [] = tasksOf r [(s, task)] ++ v.queued r
          rw [List.append_nil]
          split at here
          · next same =>
              rw [same] at oldest
              rw [now here, queued_of_agenda before oldest, tasksOf_cons, tasksOf_cons]
              split <;> rfl
          · next other =>
              have elsewhere : s ≠ r := by
                rintro rfl
                obtain ⟨target, htarget, hqueue⟩ :=
                  orderly.placed q _ oldest _ List.mem_cons_self
                obtain rfl := Option.some.inj (before.symm.trans htarget)
                exact other hqueue.symm
              rw [queued, now (here.trans owes), tasksOf_cons, if_neg elsewhere, tasksOf_nil,
                List.nil_append]

/-- What has been performed in a room and what is queued for it, oldest first. -/
def history (past : List (RoomRef × RoomTask)) (w : World) (r : RoomRef) : List RoomTask :=
  tasksOf r past ++ w.queued r

/-- A history only grows, by what is pushed. -/
theorem Move.history (move : Move w deeds v) (furnished : Furnished w) (orderly : Orderly past w)
    (r : RoomRef) :
    World.history (past ++ ranIn deeds) v r =
      World.history past w r ++ tasksOf r (pushedIn deeds) := by
  rw [World.history, World.history, tasksOf_append, List.append_assoc, List.append_assoc,
    move.queued furnished orderly]

/-! ## The rooms after a move -/

theorem members_roomAfter (w : World) (task : RoomTask) (room : Room) :
    (w.roomAfter task room).members = w.membersAfter room.members task := by
  cases task <;> simp only [roomAfter, membersAfter]
  next c => cases w.standing? c <;> rfl

theorem memberCount_roomAfter (w : World) (task : RoomTask) {room : Room}
    (counted : room.memberCount = room.members.size) :
    (w.roomAfter task room).memberCount = (w.roomAfter task room).members.size := by
  cases task <;> simp only [roomAfter] <;> try exact counted
  next c =>
    split
    · rfl
    · exact counted

/-- An entrance that is performed is pending no more. -/
theorem pendingEnters_roomAfter {task : RoomTask}
    (entrant : ∀ c, task = .enter c → (w.standing? c).isSome) (room : Room) :
    (w.roomAfter task room).pendingEnters = room.pendingEnters - task.isEnter.toNat := by
  cases task with
  | enter c =>
      rw [roomAfter, if_pos (entrant c rfl)]
      rfl
  | _ => rfl

/-- What has become of a room after a move that pushes and performs some tasks in it. -/
inductive RoomChange (w : World) (room : Room) : List RoomTask → List RoomTask → Room → Prop
  | same (pushed : List RoomTask) (other : pushed.countP RoomTask.isEnter = 0) :
      RoomChange w room pushed [] room
  | entered (c : ClientRef) :
      RoomChange w room [.enter c] [] { room with pendingEnters := room.pendingEnters + 1 }
  | performed (task : RoomTask) : RoomChange w room [] [task] (w.roomAfter task room)

theorem Move.roomChange (move : Move w deeds v) {r : RoomRef} {room : Room}
    (before : w.room? r = some room) :
    ∃ after, v.room? r = some after ∧
      RoomChange w room (tasksOf r (pushedIn deeds)) (tasksOf r (ranIn deeds)) after := by
  have idle : RoomChange w room [] [] room := .same [] rfl
  cases move with
  | quiet quiet => exact ⟨room, (quiet.room? r).trans before, idle⟩
  | openHall => exact ⟨room, before, idle⟩
  | makeRoom h name _ absent =>
      refine ⟨room, ?_, idle⟩
      rw [room?_getOrCreateRoom absent, if_neg (ne_length_of_room before), before]
  | newClient h => exact ⟨room, (room?_newClient w h r).trans before, idle⟩
  | name => exact ⟨room, before, idle⟩
  | unname => exact ⟨room, before, idle⟩
  | strike => exact ⟨room, before, idle⟩
  | enter h name s c =>
      change ∃ after, _ ∧ RoomChange w room (tasksOf r [(s, .enter c)]) [] after
      rw [room?_pushEnter, before, tasksOf_cons]
      split
      · exact ⟨_, rfl, .entered c⟩
      · exact ⟨room, rfl, idle⟩
  | push s _ task _ other =>
      change ∃ after, _ ∧ RoomChange w room (tasksOf r [(s, task)]) [] after
      rw [room?_pushToRoom, before, tasksOf_cons]
      refine ⟨room, rfl, .same _ ?_⟩
      split
      · cases task with
        | enter c => exact absurd rfl (other c)
        | _ => rfl
      · rfl
  | run q i s task =>
      change ∃ after, (w.modifyRoom s (w.roomAfter task)).room? r = some after ∧
        RoomChange w room [] (tasksOf r [(s, task)]) after
      rw [room?_modifyRoom, before, tasksOf_cons]
      split
      · exact ⟨_, rfl, .performed task⟩
      · exact ⟨room, rfl, idle⟩

/-- A room that is there after a move has just been made, or is what its change has left. -/
theorem Move.roomChange_cases (move : Move w deeds v) {r : RoomRef} {after : Room}
    (found : v.room? r = some after) :
    (w.room? r = none ∧ deeds = [] ∧ MadeRoom w v r after) ∨
      ∃ room, w.room? r = some room ∧
        RoomChange w room (tasksOf r (pushedIn deeds)) (tasksOf r (ranIn deeds)) after := by
  cases before : w.room? r with
  | none => exact .inl ⟨rfl, move.madeRoom before found⟩
  | some room =>
      obtain ⟨same, hsame, change⟩ := move.roomChange before
      obtain rfl := Option.some.inj (hsame.symm.trans found)
      exact .inr ⟨room, rfl, change⟩

theorem RoomChange.members {room after : Room} {pushed ran : List RoomTask}
    (h : RoomChange w room pushed ran after) :
    after.members = ran.foldl w.membersAfter room.members := by
  cases h with
  | same => rfl
  | entered c => rfl
  | performed task => exact members_roomAfter w task room

theorem RoomChange.memberCount {room after : Room} {pushed ran : List RoomTask}
    (h : RoomChange w room pushed ran after) (counted : room.memberCount = room.members.size) :
    after.memberCount = after.members.size := by
  cases h with
  | same => exact counted
  | entered c => exact counted
  | performed task => exact memberCount_roomAfter w task counted

/-- The pending entrances follow what is queued. -/
theorem RoomChange.pending {room after : Room} {pushed ran queued later : List RoomTask}
    (h : RoomChange w room pushed ran after) (moved : queued ++ pushed = ran ++ later)
    (entrant : ∀ c, .enter c ∈ ran → (w.standing? c).isSome)
    (pending : room.pendingEnters = queued.countP RoomTask.isEnter) :
    after.pendingEnters = later.countP RoomTask.isEnter := by
  have counted := congrArg (List.countP RoomTask.isEnter) moved
  rw [List.countP_append, List.countP_append, ← pending] at counted
  cases h with
  | same pushed other =>
      rw [other] at counted
      exact counted.trans (Nat.zero_add _)
  | entered c => exact counted.trans (Nat.zero_add _)
  | performed task =>
      have known : ∀ c, task = .enter c → (w.standing? c).isSome := by
        rintro c rfl
        exact entrant c List.mem_cons_self
      rw [pendingEnters_roomAfter known]
      rw [List.countP_singleton, List.countP_nil] at counted
      cases hkind : task.isEnter with
      | false =>
          rw [hkind] at counted
          simpa using counted
      | true =>
          rw [hkind] at counted
          simp at counted ⊢
          omega

/-! ## The register after a move -/

/-- A registered room that is vacant and has been asked to be given up. -/
structure Condemned (w : World) (h : HallRef) (name : String) (r : RoomRef) : Prop where
  room : ∃ room, w.room? r = some room ∧ room.hall = h ∧ room.name = name ∧ room.isVacant = true
  asked : ∃ q agenda, w.agenda? q = some agenda ∧ (r, .tidy) ∈ agenda

/-- Only a condemned room is taken out of the register. -/
theorem Move.findRoom_stays (move : Move w deeds v) {h : HallRef} {name : String} {r : RoomRef}
    (found : w.findRoom? h name = some r) :
    v.findRoom? h name = some r ∨ deeds = [] ∧ Condemned w h name r := by
  cases move with
  | quiet quiet => exact .inl ((quiet.findRoom? h name).trans found)
  | openHall =>
      left
      rw [findRoom?_eq] at found ⊢
      rw [register?_openHall]
      split
      · next new =>
          rw [new, register?_length] at found
          contradiction
      · exact found
  | makeRoom k asked known absent =>
      left
      rw [findRoom?_getOrCreateRoom known]
      split
      · next new =>
          rw [new.1, new.2, absent] at found
          contradiction
      · exact found
  | newClient k hall known =>
      left
      rw [findRoom?_eq] at found ⊢
      rw [register?_newClient known]
      split
      · cases before : w.register? h with
        | none =>
            rw [before] at found
            contradiction
        | some register =>
            rw [before] at found
            exact found
      · exact found
  | name => exact .inl found
  | unname => exact .inl found
  | enter k asked s c => exact .inl ((findRoom?_pushEnter w s c h name).trans found)
  | push s _ task => exact .inl ((findRoom?_pushToRoom w s task h name).trans found)
  | strike q s room agenda hroom registered vacant owes asked =>
      rw [findRoom?_strike]
      split
      · next same =>
          obtain ⟨rfl, rfl⟩ := same
          obtain rfl := Option.some.inj (registered.symm.trans found)
          exact .inr ⟨rfl, ⟨room, hroom, rfl, rfl, vacant⟩, q, agenda, owes, asked⟩
      · exact .inl found
  | run => exact .inl found

/-- Entrances are asked for in registered rooms only. -/
theorem Move.registered_of_enter (move : Move w deeds v) (furnished : Furnished w) {r : RoomRef}
    {room : Room} (before : w.room? r = some room) {c : ClientRef}
    (entered : .enter c ∈ tasksOf r (pushedIn deeds)) :
    w.findRoom? room.hall room.name = some r := by
  rw [mem_tasksOf] at entered
  cases move with
  | enter h name s d registered =>
      obtain ⟨rfl, -⟩ := Prod.mk.inj (List.mem_singleton.1 entered)
      obtain ⟨same, hsame, hall, hname⟩ := furnished.registered h name r registered
      obtain rfl := Option.some.inj (before.symm.trans hsame)
      rw [hall, hname]
      exact registered
  | push s _ task _ other =>
      obtain ⟨-, same⟩ := Prod.mk.inj (List.mem_singleton.1 entered)
      exact absurd same.symm (other c)
  | _ => contradiction

theorem isVacant_iff {room : Room} :
    room.isVacant = true ↔ room.memberCount = 0 ∧ room.pendingEnters = 0 := by
  rw [Room.isVacant, Bool.and_eq_true, decide_eq_true_iff, decide_eq_true_iff]

/-- A vacant room stays so whatever is performed in it but an entrance. -/
theorem isVacant_roomAfter {task : RoomTask} {room : Room}
    (counted : room.memberCount = room.members.size) (other : task.isEnter = false)
    (vacant : room.isVacant = true) : (w.roomAfter task room).isVacant = true := by
  rw [isVacant_iff] at vacant
  cases task with
  | enter c => contradiction
  | leave playerId =>
      rw [isVacant_iff, memberCount_roomAfter w _ counted, members_roomAfter]
      refine ⟨?_, vacant.2⟩
      have le := room.members.size_erase_le playerId
      rw [← counted, vacant.1] at le
      exact Nat.eq_zero_of_le_zero le
  | _ => exact isVacant_iff.2 vacant

/-- A room in which somebody is after a move, or is about to be, was registered before. -/
theorem Orderly.registered_of_change (orderly : Orderly past w) (furnished : Furnished w)
    (move : Move w deeds v) {r : RoomRef} {room after : Room} (before : w.room? r = some room)
    (change : RoomChange w room (tasksOf r (pushedIn deeds)) (tasksOf r (ranIn deeds)) after)
    (taken : after.isVacant = false) : w.findRoom? room.hall room.name = some r := by
  have moved := move.queued furnished orderly r
  generalize hpushed : tasksOf r (pushedIn deeds) = pushed at change moved
  generalize hran : tasksOf r (ranIn deeds) = ran at change moved
  cases change with
  | same => exact orderly.occupied r room before taken
  | entered c =>
      have entered : .enter c ∈ tasksOf r (pushedIn deeds) := by
        rw [hpushed]
        exact List.mem_cons_self
      exact move.registered_of_enter furnished before entered
  | performed task =>
      apply orderly.occupied r room before
      by_contra vacant
      rw [Bool.not_eq_false] at vacant
      cases hkind : task.isEnter with
      | false =>
          rw [isVacant_roomAfter (orderly.memberCount r room before) hkind vacant] at taken
          contradiction
      | true =>
          have pending := orderly.pending r room before
          rw [List.append_nil] at moved
          rw [(isVacant_iff.1 vacant).2, moved, List.singleton_append,
            List.countP_cons_of_pos hkind] at pending
          exact absurd pending (Nat.succ_ne_zero _).symm

/-! ## The invariant is kept -/

/-- What is performed leaves the same members in a world that has more clients. -/
theorem foldl_membersAfter (ext : Extends w v) {tasks : List RoomTask}
    (entrant : ∀ c, .enter c ∈ tasks → (w.standing? c).isSome) (members : Table Nat ClientRef) :
    tasks.foldl v.membersAfter members = tasks.foldl w.membersAfter members := by
  induction tasks generalizing members with
  | nil => rfl
  | cons task later ih =>
      have same : v.membersAfter members task = w.membersAfter members task := by
        cases task with
        | enter c =>
            obtain ⟨s, hs⟩ := Option.isSome_iff_exists.1 (entrant c List.mem_cons_self)
            rw [membersAfter, membersAfter, hs, ext.standing c s hs]
        | _ => rfl
      rw [List.foldl_cons, List.foldl_cons, same]
      exact ih (fun c mem => entrant c (List.mem_cons_of_mem _ mem)) _

/-- Every move keeps the rooms in order. -/
theorem Orderly.move (orderly : Orderly past w) (furnished : Furnished w) (move : Move w deeds v) :
    Orderly (past ++ ranIn deeds) v where
  placed q agenda owes e listed := by
    have there : ∃ room, w.room? e.1 = some room ∧ room.queue = q := by
      rcases move.mem_agenda furnished owes listed with ⟨before, hbefore, mem⟩ | ⟨there, -⟩
      · exact orderly.placed q before hbefore e mem
      · exact there
    obtain ⟨room, found, queue⟩ := there
    obtain ⟨after, hafter, -, -, same⟩ := move.room found
    exact ⟨after, hafter, same.trans queue⟩
  fits q agenda owes e listed := by
    rcases move.mem_agenda furnished owes listed with ⟨before, hbefore, mem⟩ | ⟨-, fits⟩
    · exact (orderly.fits q before hbefore e mem).extends furnished move.extends
    · exact fits.extends furnished move.extends
  fitted e done := by
    rcases List.mem_append.1 done with old | new
    · exact (orderly.fitted e old).extends furnished move.extends
    · have fits := move.deed_fits furnished orderly e (List.mem_append_right _ new)
      exact fits.extends furnished move.extends
  pending r after hafter := by
    rcases move.roomChange_cases hafter with ⟨before, -, made⟩ | ⟨room, before, change⟩
    · rw [move.queued_of_missing furnished orderly before, made.room]
      rfl
    · apply change.pending (move.queued furnished orderly r) _ (orderly.pending r room before)
      intro c ran
      have listed := List.mem_append_right (pushedIn deeds) (mem_tasksOf.1 ran)
      exact (move.deed_fits furnished orderly _ listed).entrant c rfl
  members r after hafter := by
    rw [foldl_membersAfter move.extends ?known]
    case known =>
      intro c ran
      rw [mem_tasksOf] at ran
      rcases List.mem_append.1 ran with old | new
      · exact (orderly.fitted _ old).entrant c rfl
      · have listed := List.mem_append_right (pushedIn deeds) new
        exact (move.deed_fits furnished orderly _ listed).entrant c rfl
    rw [tasksOf_append, List.foldl_append]
    rcases move.roomChange_cases hafter with ⟨before, hdeeds, made⟩ | ⟨room, before, change⟩
    · have never : tasksOf r past = [] := by
        apply tasksOf_eq_nil
        rintro e done rfl
        have there := (orderly.fitted e done).room
        rw [before] at there
        contradiction
      rw [never, hdeeds, made.room]
      rfl
    · rw [change.members, orderly.members r room before]
  memberCount r after hafter := by
    rcases move.roomChange_cases hafter with ⟨-, -, made⟩ | ⟨room, before, change⟩
    · rw [made.room]
      rfl
    · exact change.memberCount (orderly.memberCount r room before)
  occupied r after hafter taken := by
    rcases move.roomChange_cases hafter with ⟨-, -, made⟩ | ⟨room, before, change⟩
    · rw [made.world, findRoom?_getOrCreateRoom_self made.known,
        getOrCreateRoom_snd made.absent, made.ref]
    · obtain ⟨kept, hkept, hall, name, -⟩ := move.room before
      obtain rfl := Option.some.inj (hkept.symm.trans hafter)
      have registered := orderly.registered_of_change furnished move before change taken
      rw [hall, name]
      rcases move.findRoom_stays registered with stays | ⟨rfl, condemned⟩
      · exact stays
      · obtain ⟨again, hagain, -, -, vacant⟩ := condemned.room
        obtain rfl := Option.some.inj (before.symm.trans hagain)
        cases change
        rw [vacant] at taken
        contradiction

end World

end ChatHall.Server
