/-
# What a room hands out

A task of a room hands at most one frame to its members, those that the task has left:
whoever has entered gets the news of it, and whoever has left does not. An update tells
the number of members as of the task, and whether it has made them more or fewer.
-/

import ChatHall.Proofs.Server.Farewell

namespace ChatHall

/-- By how much the members of a room have become more with an event. -/
def Chat.RoomEvent.change : Chat.RoomEvent → Int
  | entered => 1
  | left => -1
  | snapshot => 0

namespace Server

def Outgoing.change : Outgoing → Int
  | update u => u.event.change
  | _ => 0

namespace World

variable {w v u : World} {past : List (RoomRef × RoomTask)} {r : RoomRef} {task : RoomTask}
variable {c d : ClientRef} {room : Room}

/-! ## What is sent to a client -/

def sent (w : World) (c : ClientRef) : List Outgoing := ((w.client? c).map Client.sent).getD []

def reaches (w : World) (c : ClientRef) : Bool := (w.guest? c).any Guest.isConnected

theorem Steady.reaches (h : Steady w v) (c : ClientRef) : v.reaches c = w.reaches c := by
  rw [World.reaches, h.guest?, World.reaches]

theorem unreachable?_eq_none {client : Client} :
    unreachable? client = none ↔ client.guest.isConnected = true := by
  rw [unreachable?, Guest.isConnected, Bool.and_eq_true, decide_eq_true_eq, decide_eq_true_eq]
  change _ ↔ client.arrival ≠ .unnoticed ∧ client.link = .connected
  split
  · next unnoticed => simp [unnoticed]
  · next noted => cases hlink : client.link <;> simp [noted]

theorem sent_modifyClient (w : World) (c d : ClientRef) (o : Outgoing) :
    (w.modifyClient c fun client => { client with sent := client.sent ++ [o] }).sent d =
      w.sent d ++ if c = d ∧ (w.client? d).isSome then [o] else [] := by
  rw [sent, sent, client?_modifyClient]
  by_cases own : c = d
  · rw [if_pos own]
    cases w.client? d with
    | none => simp
    | some client => simp [own]
  · simp [own]

theorem sent_trySend (w : World) (c d : ClientRef) (o : Outgoing) :
    (w.trySend c o).sent d = w.sent d ++ if c = d ∧ w.reaches d = true then [o] else [] := by
  rw [trySend, send]
  cases found : w.client? c with
  | none =>
      have nobody : ¬ (c = d ∧ w.reaches d = true) := by
        rintro ⟨rfl, reached⟩
        rw [reaches, guest?, found] at reached
        contradiction
      rw [if_neg nobody, List.append_nil]
  | some client =>
      have known : w.reaches c = client.guest.isConnected := by
        rw [reaches, guest?_of_client found]
        rfl
      cases may : unreachable? client with
      | none =>
          have reached := known.trans (unreachable?_eq_none.1 may)
          simp only [may]
          rw [sent_modifyClient]
          by_cases own : c = d
          · subst own
            simp [found, reached]
          · simp [own]
      | some e =>
          have closed : ¬ (c = d ∧ w.reaches d = true) := by
            rintro ⟨rfl, reached⟩
            rw [unreachable?_eq_none.2 (known.symm.trans reached)] at may
            contradiction
          simp only [may]
          rw [if_neg closed, List.append_nil]

/-- Whatever is handed to some clients is accepted once for each who can be sent to. -/
theorem sent_foldl_trySend {clients : List ClientRef} (nodup : clients.Nodup) (w : World)
    (d : ClientRef) (o : Outgoing) :
    (clients.foldl (fun w c => w.trySend c o) w).sent d =
      w.sent d ++ if d ∈ clients ∧ w.reaches d = true then [o] else [] := by
  induction clients generalizing w with
  | nil => simp
  | cons c later ih =>
      rw [List.nodup_cons] at nodup
      rw [List.foldl_cons, ih nodup.2, sent_trySend, (steady_trySend w c o).reaches,
        List.append_assoc]
      by_cases own : c = d
      · subst own
        simp [nodup.1]
      · simp [own, Ne.symm own]

/-! ## The members -/

/-- The members of a room by player id, nobody if there is no such room. -/
def membersOf (w : World) (r : RoomRef) : Table Nat ClientRef :=
  ((w.room? r).map Room.members).getD {}

theorem membersOf_of_room (found : w.room? r = some room) : w.membersOf r = room.members := by
  rw [membersOf, found]
  rfl

theorem membersOf_congr (same : ∀ r, v.room? r = w.room? r) (r : RoomRef) :
    v.membersOf r = w.membersOf r := by
  rw [membersOf, same, membersOf]

theorem membersOf_modifyRoom (w : World) (r : RoomRef) (task : RoomTask) :
    (w.modifyRoom r (w.roomAfter task)).membersOf r =
      if (w.room? r).isSome then w.membersAfter (w.membersOf r) task else w.membersOf r := by
  rw [membersOf, membersOf, room?_modifyRoom, if_pos rfl]
  cases w.room? r with
  | none => rfl
  | some room => exact members_roomAfter w task room

/-- The members of a room are those that its performed tasks leave. -/
theorem InOrder.membersOf_eq (h : InOrder past w) (r : RoomRef) :
    w.membersOf r = (tasksOf r past).foldl w.membersAfter {} := by
  rw [membersOf]
  cases found : w.room? r with
  | some room => exact h.orderly.members r room found
  | none =>
      have never : tasksOf r past = [] := by
        apply tasksOf_eq_nil
        rintro e done rfl
        have there := (h.orderly.fitted e done).room
        rw [found] at there
        contradiction
      rw [never]
      rfl

/-- Every member stands under its own player id. -/
theorem InOrder.sessionId_of_member (h : InOrder past w) {playerId : Nat}
    (inside : (w.membersOf r).find? playerId = some c) :
    ∃ s, w.standing? c = some s ∧ s.sessionId = playerId :=
  sessionId_of_find? (h.membersOf_eq r ▸ inside)

theorem InOrder.nodup_members (h : InOrder past w) (r : RoomRef) :
    (w.membersOf r).values.Nodup := by
  refine Table.nodup_values fun k l c first second => ?_
  obtain ⟨s, known, rfl⟩ := h.sessionId_of_member first
  obtain ⟨t, again, rfl⟩ := h.sessionId_of_member second
  rw [Option.some.inj (known.symm.trans again)]

/-- The members of a room are those whose last performed move is an entrance. -/
theorem Agreed.mem_members_iff (h : Agreed past w) {playerId : Nat}
    (known : ∀ s, w.standing? c = some s → s.sessionId = playerId) (r : RoomRef) :
    c ∈ (w.membersOf r).values ↔ lastMove? c playerId (tasksOf r past) = some (.enter c) := by
  have members := h.inOrder.membersOf_eq r
  -- Either way the client has entered the room, so that this is there, and of its hall.
  have told (entered : .enter c ∈ tasksOf r past) :
      (w.membersOf r).find? playerId =
        if lastMove? c playerId (tasksOf r past) = some (.enter c) then some c else none := by
    have done : .enter c ∈ history past w r := List.mem_append_left _ entered
    obtain ⟨room, there⟩ := h.inOrder.room_of_mem_history done
    obtain ⟨seats, seated, -⟩ := h.seats
    obtain ⟨s, standing, -⟩ := seated.entrant r c done
    obtain ⟨client, found, rfl⟩ := Option.map_eq_some_iff.1 standing
    obtain rfl := known _ standing
    rw [membersOf_of_room there]
    exact h.find?_members found there (h.hall_of_entered found there done)
  rw [Table.mem_values_iff]
  constructor
  · rintro ⟨other, inside⟩
    obtain ⟨s, standing, rfl⟩ := h.inOrder.sessionId_of_member inside
    have entered := told (enter_mem_of_find? (members ▸ inside))
    rw [known s standing] at inside
    by_contra outside
    rw [if_neg outside, inside] at entered
    contradiction
  · intro inside
    exact ⟨playerId, (told (enter_mem_of_lastMove? inside)).trans (if_pos inside)⟩

/-! ## One task -/

def updateOf (room : Room) (event : Chat.RoomEvent) (playerId : Option Nat) : Outgoing :=
  .update {
    room := room.name
    event
    playerId := playerId.map UInt64.ofNat
    memberCount := UInt64.ofNat room.memberCount }

/-- What a task of a room hands to the members that it leaves. -/
def handout? (w : World) (r : RoomRef) (task : RoomTask) : Option Outgoing :=
  (w.room? r).bind fun room =>
    match task with
    | .enter c =>
      (w.standing? c).map fun s => updateOf (w.roomAfter task room) .entered (some s.sessionId)
    | .leave playerId =>
      if room.members.contains playerId then
        some (updateOf (w.roomAfter task room) .left (some playerId))
      else none
    | .say playerId message =>
      some (.broadcast {
        playerId := UInt64.ofNat playerId
        message
        timestamp := w.state.clock })
    | .announce => some (updateOf room .snapshot none)
    | .tidy => none

/-- The world with something handed to the members of a room, if anything. -/
def hand (w : World) (r : RoomRef) : Option Outgoing → World
  | some o => w.broadcast r o
  | none => w

theorem modifyRoom_of_none (missing : w.room? r = none) (f : Room → Room) :
    w.modifyRoom r f = w := by
  have past_end : w.state.rooms.length ≤ r := List.getElem?_eq_none_iff.1 missing
  rw [modifyRoom, mapHouse, Jobs.Realm.updateState, List.modify_eq_self past_end]

theorem modifyRoom_id (w : World) (r : RoomRef) : (w.modifyRoom r fun room => room) = w := by
  rw [modifyRoom, mapHouse, Jobs.Realm.updateState]
  exact congrArg (fun rooms => { w with state := { w.state with rooms } })
    (List.modify_id r w.state.rooms)

theorem broadcast_of_none (missing : w.room? r = none) (o : Outgoing) : w.broadcast r o = w := by
  rw [broadcast, missing]

theorem sendUpdate_of_room (found : w.room? r = some room) (event : Chat.RoomEvent)
    (playerId : Option Nat) :
    w.sendUpdate r event playerId = w.broadcast r (updateOf room event playerId) := by
  rw [sendUpdate, found]
  rfl

theorem sendUpdate_of_none (missing : w.room? r = none) (event : Chat.RoomEvent)
    (playerId : Option Nat) : w.sendUpdate r event playerId = w := by
  rw [sendUpdate, missing]

/-- Nothing is done in a room that is not there. -/
theorem performRoomTask_of_none (missing : w.room? r = none) (other : task ≠ .tidy) :
    w.performRoomTask r task = w := by
  cases task with
  | enter c =>
      rw [performRoomTask]
      cases w.client? c with
      | none => rfl
      | some client =>
          dsimp only
          rw [modifyRoom_of_none missing]
          exact sendUpdate_of_none missing _ _
  | leave playerId =>
      rw [performRoomTask, missing]
      exact modifyRoom_of_none missing _
  | say playerId message => exact broadcast_of_none missing _
  | announce => exact sendUpdate_of_none missing _ _
  | tidy => contradiction

theorem performRoomTask_of_room (there : w.room? r = some room) (other : task ≠ .tidy) :
    w.performRoomTask r task = (w.modifyRoom r (w.roomAfter task)).hand r (w.handout? r task) := by
  have changed := room?_modifyRoom w r r (w.roomAfter task)
  rw [if_pos rfl, there, Option.map_some] at changed
  rw [handout?, there, Option.bind_some]
  cases task with
  | enter c =>
      rw [performRoomTask]
      cases found : w.client? c with
      | none =>
          have unknown : w.standing? c = none := by rw [standing?, found, Option.map_none]
          have same : w.roomAfter (.enter c) = fun room => room := by
            funext room
            rw [roomAfter, unknown]
            rfl
          dsimp only
          rw [unknown, same, modifyRoom_id]
          rfl
      | some client =>
          have known := standing?_of_client found
          have same : (fun room : Room =>
              { room with
                members := room.members.insert client.sessionId c
                memberCount := (room.members.insert client.sessionId c).size
                pendingEnters := room.pendingEnters - 1 }) = w.roomAfter (.enter c) := by
            funext room
            rw [roomAfter, membersAfter, known]
            rfl
          dsimp only
          rw [known, same]
          exact sendUpdate_of_room changed _ _
  | leave playerId =>
      rw [performRoomTask, there]
      dsimp only [Option.map_some, Option.getD_some]
      split
      · exact sendUpdate_of_room changed _ _
      · rfl
  | say playerId message =>
      rw [performRoomTask]
      exact congrArg (broadcast · r _) (modifyRoom_id w r).symm
  | announce =>
      rw [performRoomTask, sendUpdate_of_room there]
      exact congrArg (broadcast · r _) (modifyRoom_id w r).symm
  | tidy => contradiction

/-- A task changes the room, and then hands out what it has to hand out. -/
theorem performRoomTask_eq (w : World) (r : RoomRef) (other : task ≠ .tidy) :
    w.performRoomTask r task = (w.modifyRoom r (w.roomAfter task)).hand r (w.handout? r task) := by
  cases there : w.room? r with
  | none =>
      have nothing : w.handout? r task = none := by rw [handout?, there, Option.bind_none]
      rw [nothing, hand, modifyRoom_of_none there]
      exact performRoomTask_of_none there other
  | some room => exact performRoomTask_of_room there other

theorem sent_hand {o : Option Outgoing} (nodup : (w.membersOf r).values.Nodup) (d : ClientRef) :
    (w.hand r o).sent d =
      w.sent d ++ if d ∈ (w.membersOf r).values ∧ w.reaches d = true then o.toList else [] := by
  cases o with
  | none => simp [hand]
  | some o =>
      rw [hand, broadcast]
      rw [membersOf] at nodup ⊢
      cases there : w.room? r with
      | none =>
          have nobody : ¬ (d ∈ (∅ : Table Nat ClientRef).values ∧ w.reaches d = true) :=
            fun inside => List.not_mem_nil inside.1
          exact (List.append_nil _).symm.trans (congrArg _ (if_neg nobody).symm)
      | some room =>
          rw [there] at nodup
          exact sent_foldl_trySend nodup w d o

/-- The rooms after a task has been performed. -/
theorem room?_performRoomTask (w : World) (r : RoomRef) (task : RoomTask) (k : RoomRef) :
    (w.performRoomTask r task).room? k = (w.modifyRoom r (w.roomAfter task)).room? k := by
  by_cases tidies : task = .tidy
  · subst tidies
    rw [show w.roomAfter .tidy = fun room => room from rfl, modifyRoom_id]
    rcases removeIfVacant_cases w r with same | ⟨room, -, -, -, struck⟩
    · rw [performRoomTask, same]
    · rw [performRoomTask, struck]
      rfl
  · exact (calm_performRoomTask w r tidies).room? k

/-- A task hands its frame to each of the members that it leaves, once, if that can be sent to. -/
theorem sent_performRoomTask (nodup : ((w.performRoomTask r task).membersOf r).values.Nodup)
    (d : ClientRef) :
    (w.performRoomTask r task).sent d = w.sent d ++
      if d ∈ ((w.performRoomTask r task).membersOf r).values ∧ w.reaches d = true then
        (w.handout? r task).toList
      else [] := by
  have members := membersOf_congr (room?_performRoomTask w r task) r
  by_cases tidies : task = .tidy
  · subst tidies
    have nothing : w.handout? r .tidy = none := by
      rw [handout?]
      exact Option.bind_fun_none _
    rw [nothing, Option.toList_none, ite_self, List.append_nil]
    rcases removeIfVacant_cases w r with same | ⟨room, -, -, -, struck⟩
    · rw [performRoomTask, same]
    · rw [performRoomTask, struck]
      rfl
  · rw [members] at nodup ⊢
    rw [performRoomTask_eq w r tidies, sent_hand nodup]
    rfl

/-! ## One event -/

section Event

variable {e : Event}

/-- What an event performs in a room it performs on the room's behalf alone. -/
theorem state_of_performs? (performs : w.performs? e = some (r, task))
    (after : w.after? e = some v) : v.state = (w.performRoomTask r task).state := by
  cases e with
  | work q i =>
      rw [performs?] at performs
      split at performs
      · next job phase =>
          cases job with
          | room s other =>
              obtain ⟨rfl, rfl⟩ := Prod.mk.inj (Option.some.inj performs)
              exact (eq_of_finished phase rfl after).1
          | _ => contradiction
      · contradiction
  | _ => contradiction

theorem membersOf_of_performs? (performs : w.performs? e = some (r, task))
    (after : w.after? e = some v) (k : RoomRef) :
    v.membersOf k = (w.performRoomTask r task).membersOf k := by
  rw [membersOf, room?, state_of_performs? performs after]
  rfl

/-- Every member that a task leaves gets what it hands out, once, if it can be sent to. -/
theorem sent_of_performs? (inOrder : InOrder past v) (performs : w.performs? e = some (r, task))
    (after : w.after? e = some v) (d : ClientRef) :
    v.sent d = w.sent d ++
      if d ∈ (v.membersOf r).values ∧ v.reaches d = true then (w.handout? r task).toList
      else [] := by
  have state := state_of_performs? performs after
  have reaches : v.reaches d = w.reaches d := by
    have steady := (steady_performRoomTask w r task).reaches d
    rw [World.reaches, guest?, client?, state]
    exact steady
  have nodup := inOrder.nodup_members r
  rw [membersOf_of_performs? performs after] at nodup ⊢
  rw [reaches, sent, client?, state]
  exact sent_performRoomTask nodup d

/-- Nobody enters who is inside, so every update tells by how much the members have become
more. -/
theorem Agreed.size_of_performs? (h : Agreed past w) (performs : w.performs? e = some (r, task))
    (after : w.after? e = some v) :
    ((v.membersOf r).size : Int) =
      (w.membersOf r).size + ((w.handout? r task).map Outgoing.change).getD 0 := by
  obtain ⟨room, -, there, -⟩ := h.inOrder.queued_of_performs? performs
  rw [membersOf_of_performs? performs after, membersOf_congr (room?_performRoomTask w r task),
    membersOf_modifyRoom, if_pos (Option.isSome_of_eq_some there), membersOf_of_room there,
    handout?, there, Option.bind_some]
  cases task with
  | enter c =>
      obtain ⟨again, client, hagain, found, outside⟩ := h.outside_of_performs? performs
      obtain rfl := Option.some.inj (there.symm.trans hagain)
      have known := standing?_of_client found
      dsimp only
      rw [known, membersAfter, known]
      have larger := Table.size_insert_of_find? outside c
      exact congrArg Int.ofNat larger
  | leave playerId =>
      rw [membersAfter]
      have smaller := room.members.size_erase playerId
      dsimp only
      cases inside : room.members.contains playerId with
      | true =>
          rw [inside] at smaller
          simp only [if_true, Option.map_some, Option.getD_some, updateOf, Outgoing.change,
            Chat.RoomEvent.change]
          rw [Bool.toNat_true] at smaller
          omega
      | false =>
          rw [inside] at smaller
          simp only [Bool.false_eq_true, if_false, Option.map_none, Option.getD_none]
          rw [Bool.toNat_false] at smaller
          omega
  | say playerId message => exact (Int.add_zero _).symm
  | announce => exact (Int.add_zero _).symm
  | tidy => exact (Int.add_zero _).symm

/-- An update tells the number of members that its task leaves. -/
theorem InOrder.memberCount_of_performs? (h : InOrder past w)
    (performs : w.performs? e = some (r, task)) (after : w.after? e = some v)
    {update : Chat.RoomUpdate} (handed : w.handout? r task = some (.update update)) :
    update.memberCount = UInt64.ofNat (v.membersOf r).size := by
  rw [handout?, Option.bind_eq_some_iff] at handed
  obtain ⟨room, there, handed⟩ := handed
  have counted := memberCount_roomAfter w task (h.orderly.memberCount r room there)
  rw [membersOf_of_performs? performs after, membersOf_congr (room?_performRoomTask w r task),
    membersOf, room?_modifyRoom, if_pos rfl, there, Option.map_some, Option.map_some,
    Option.getD_some, ← counted]
  cases task with
  | enter c =>
      obtain ⟨s, -, told⟩ := Option.map_eq_some_iff.1 handed
      obtain rfl := Outgoing.update.inj told
      rfl
  | leave playerId =>
      rw [Option.ite_none_right_eq_some] at handed
      obtain rfl := Outgoing.update.inj (Option.some.inj handed.2)
      rfl
  | say playerId message => exact nomatch handed
  | announce =>
      obtain rfl := Outgoing.update.inj (Option.some.inj handed)
      rfl
  | tidy => contradiction

/-- A message is handed out as it was given, with the player id of its sender. -/
theorem InOrder.handout?_say (h : InOrder past w) {playerId : Nat} {message : String}
    (performs : w.performs? e = some (r, .say playerId message)) :
    w.handout? r (.say playerId message) = some (.broadcast {
      playerId := UInt64.ofNat playerId
      message
      timestamp := w.state.clock }) := by
  obtain ⟨room, -, there, -⟩ := h.queued_of_performs? performs
  rw [handout?, there]
  rfl

/-- The members of a room in which nothing is performed stay. -/
theorem InOrder.membersOf_of_idle (h : InOrder past w) (after : w.after? e = some v)
    (idle : tasksOf r (w.performs? e).toList = []) : v.membersOf r = w.membersOf r := by
  have later := h.after after
  obtain ⟨deeds, change⟩ := change_of_after? h.furnished after
  rw [later.membersOf_eq, h.membersOf_eq, tasksOf_append, idle, List.append_nil]
  refine foldl_membersAfter change.moves.extends (fun c entered => ?_) _
  exact (h.orderly.fitted _ (mem_tasksOf.1 entered)).entrant c rfl

end Event

end World

end Server

end ChatHall
