/-
# Guests

What of a client its coming and its going touch: its link, how far either has
been taken note of, and where the client is. With it go the sessions of the
halls, the names of their queues, and what the queues have still to do for
sessions. A step that leaves all of this as it is is a steady one, whatever it
does to the rooms.
-/

import ChatHall.Proofs.Server.Registry

namespace ChatHall.Server

/-- What a client is, how far its coming and its going have been taken note of, and where it
is by its own account. -/
structure Guest where
  standing : Standing
  link : Link
  arrival : Arrival
  departure : Departure
  room : Option RoomRef
  deriving Repr, DecidableEq

def Client.guest (c : Client) : Guest := ⟨c.standing, c.link, c.arrival, c.departure, c.room⟩

namespace World

variable {w v u : World}

def guest? (w : World) (c : ClientRef) : Option Guest := (w.client? c).map Client.guest

/-- The client that is among the sessions of a hall under this id. -/
def session? (w : World) (h : HallRef) (sessionId : Nat) : Option ClientRef :=
  (w.hall? h).bind fun hall => hall.sessions.find? sessionId

/-- The client whose connection a hall has accepted and whose session has not started. -/
def inHand? (w : World) (h : HallRef) : Option ClientRef := (w.hall? h).bind Hall.inHand

/-- What a queue has still to do for sessions, oldest first. -/
def duties (w : World) (q : Jobs.QueueRef) : List (ClientRef × SessionTask) :=
  ((w.pool.queue? q).map fun queue => queue.outstanding.filterMap Job.sessionTask?).getD []

theorem guest?_of_client {c : ClientRef} {client : Client} (found : w.client? c = some client) :
    w.guest? c = some client.guest := by
  rw [guest?, found]
  rfl

theorem standing?_eq_guest? (w : World) (c : ClientRef) :
    w.standing? c = (w.guest? c).map Guest.standing := by
  rw [standing?, guest?, Option.map_map]
  rfl

theorem seat?_eq (w : World) (c : ClientRef) : w.seat? c = (w.guest? c).bind Guest.room := by
  rw [seat?, guest?]
  cases w.client? c <;> rfl

/-- What a queue has to do is what is being performed and what waits. -/
theorem duties_eq (w : World) (q : Jobs.QueueRef) : w.duties q = w.performing q ++ w.awaiting q := by
  rw [duties, performing, executing, awaiting]
  cases w.pool.queue? q with
  | none => rfl
  | some queue => exact List.filterMap_append

theorem duties_eq_nil {q : Jobs.QueueRef}
    (done : ∀ queue, w.pool.queue? q = some queue → queue.outstanding = []) : w.duties q = [] := by
  rw [duties]
  cases known : w.pool.queue? q with
  | none => rfl
  | some queue =>
      rw [Option.map_some, done queue known]
      rfl

theorem guest?_modifyClient (w : World) (c d : ClientRef) {f : Client → Client} {g : Guest → Guest}
    (acts : ∀ client, (f client).guest = g client.guest) :
    (w.modifyClient c f).guest? d = if c = d then (w.guest? d).map g else w.guest? d := by
  rw [guest?, guest?, client?_modifyClient]
  split
  · rw [Option.map_map, Option.map_map]
    exact congrFun (congrArg Option.map (funext acts)) _
  · rfl

theorem inHand?_modifyHall (w : World) (h k : HallRef) (f : Hall → Hall) :
    (w.modifyHall h f).inHand? k =
      if h = k then (w.hall? k).bind fun hall => (f hall).inHand else w.inHand? k := by
  rw [inHand?, inHand?, hall?_modifyHall]
  split
  · exact Option.bind_map
  · rfl

theorem session?_modifyHall (w : World) (h k : HallRef) (f : Hall → Hall) (sessionId : Nat) :
    (w.modifyHall h f).session? k sessionId =
      if h = k then (w.hall? k).bind fun hall => (f hall).sessions.find? sessionId
      else w.session? k sessionId := by
  rw [session?, session?, hall?_modifyHall]
  split
  · exact Option.bind_map
  · rfl

/-! ## Steady steps -/

/-- The guests and their sessions, with all that has to be done for them, are as before. -/
structure Steady (w v : World) : Prop where
  guest? : ∀ c, v.guest? c = w.guest? c
  /-- Nobody is taken in hand. -/
  inHand? : ∀ h c, v.inHand? h = some c → w.inHand? h = some c
  session? : ∀ h k, v.session? h k = w.session? h k
  named : ∀ k, v.pool.find? (sessionQueueName k) = w.pool.find? (sessionQueueName k)
  duties : ∀ q, v.duties q = w.duties q

@[refl]
theorem Steady.refl (w : World) : Steady w w :=
  ⟨fun _ => rfl, fun _ _ held => held, fun _ _ => rfl, fun _ => rfl, fun _ => rfl⟩

theorem Steady.trans (first : Steady w v) (second : Steady v u) : Steady w u where
  guest? c := (second.guest? c).trans (first.guest? c)
  inHand? h c held := first.inHand? h c (second.inHand? h c held)
  session? h k := (second.session? h k).trans (first.session? h k)
  named k := (second.named k).trans (first.named k)
  duties q := (second.duties q).trans (first.duties q)

theorem Aside.duties (h : Aside w v) (q : Jobs.QueueRef) : v.duties q = w.duties q := by
  rw [duties_eq, duties_eq, performing, h.executing, h.awaiting, performing]

theorem steady_modifyClient (w : World) (c : ClientRef) {f : Client → Client}
    (same : ∀ client, (f client).guest = client.guest) : Steady w (w.modifyClient c f) where
  guest? d := by
    rw [guest?_modifyClient w c d (g := id) same, Option.map_id]
    exact ite_self _
  inHand? _ _ held := held
  session? _ _ := rfl
  named _ := rfl
  duties _ := rfl

theorem steady_modifyHall (w : World) (h : HallRef) {f : Hall → Hall}
    (same : ∀ hall, (f hall).sessions = hall.sessions)
    (inHand : ∀ hall c, (f hall).inHand = some c → hall.inHand = some c) :
    Steady w (w.modifyHall h f) where
  guest? _ := rfl
  inHand? k c held := by
    rw [inHand?_modifyHall] at held
    split at held
    · obtain ⟨hall, found, there⟩ := Option.bind_eq_some_iff.1 held
      exact Option.bind_eq_some_iff.2 ⟨hall, found, inHand hall c there⟩
    · exact held
  session? k sessionId := by
    rw [session?_modifyHall]
    split
    · simp only [same]
      rfl
    · rfl
  named _ := rfl
  duties _ := rfl

theorem steady_modifyRoom (w : World) (r : RoomRef) (f : Room → Room) :
    Steady w (w.modifyRoom r f) :=
  ⟨fun _ => rfl, fun _ _ held => held, fun _ _ => rfl, fun _ => rfl, fun _ => rfl⟩

/-! ### Sending -/

theorem steady_send {c : ClientRef} {o : Outgoing} (sent : w.send c o = .ok v) : Steady w v := by
  rw [send] at sent
  cases found : w.client? c with
  | none =>
      rw [found] at sent
      exact Except.ok.inj sent ▸ Steady.refl w
  | some client =>
      simp only [found] at sent
      split at sent
      · contradiction
      · exact Except.ok.inj sent ▸ steady_modifyClient w c fun _ => rfl

theorem steady_trySend (w : World) (c : ClientRef) (o : Outgoing) : Steady w (w.trySend c o) := by
  rw [trySend]
  split
  · next sent => exact steady_send sent
  · exact Steady.refl w

theorem steady_foldl_trySend (clients : List ClientRef) (o : Outgoing) (w : World) :
    Steady w (clients.foldl (fun w c => w.trySend c o) w) := by
  induction clients generalizing w with
  | nil => exact Steady.refl w
  | cons c later ih => exact (steady_trySend w c o).trans (ih _)

theorem steady_broadcast (w : World) (r : RoomRef) (o : Outgoing) : Steady w (w.broadcast r o) := by
  rw [broadcast]
  split
  · exact steady_foldl_trySend _ _ _
  · exact Steady.refl w

theorem steady_sendUpdate (w : World) (r : RoomRef) (event : Chat.RoomEvent)
    (playerId : Option Nat) : Steady w (w.sendUpdate r event playerId) := by
  rw [sendUpdate]
  split
  · exact steady_broadcast _ _ _
  · exact Steady.refl w

theorem steady_answer (w : World) (c : ClientRef) (response : Chat.Response) :
    Steady w (w.answer c response).1 := by
  rw [answer]
  split
  · next sent => exact steady_send sent
  · exact Steady.refl w

theorem steady_reject (w : World) (c : ClientRef) (e : Chat.Error) :
    Steady w (w.reject c e).1 := steady_trySend w c _

/-! ### Rooms -/

theorem steady_pushToRoom (w : World) (r : RoomRef) (task : RoomTask) :
    Steady w (w.pushToRoom r task) where
  guest? c := by
    rw [pushToRoom]
    split <;> rfl
  inHand? h c held := by
    rw [pushToRoom] at held
    split at held <;> exact held
  session? h k := by
    rw [pushToRoom]
    split <;> rfl
  named k := find?_pushToRoom w r task _
  duties := (aside_pushToRoom w r task).duties

theorem steady_pushTidy (w : World) (r : RoomRef) : Steady w (w.pushTidy r) := by
  rw [pushTidy]
  split
  · split
    · exact Steady.refl w
    · exact steady_pushToRoom w r .tidy
  · exact Steady.refl w

theorem steady_getOrCreateRoom (w : World) (h : HallRef) (name : String) :
    Steady w (w.getOrCreateRoom h name).1 := by
  cases found : w.findRoom? h name with
  | some r =>
      rw [getOrCreateRoom_of_some found]
  | none =>
      have registered := steady_modifyHall ((w.withPool (w.pool.getOrCreate
        (roomQueueName name)).1).mapHouse fun s => { s with rooms := s.rooms ++
          [{ hall := h, name, queue := (w.pool.getOrCreate (roomQueueName name)).2 }] }) h
        (f := fun hall => { hall with rooms := hall.rooms.insert name w.state.rooms.length })
        (fun _ => rfl) fun _ _ => id
      refine ⟨fun c => ?_, fun k c held => ?_, fun k sessionId => ?_, fun k => ?_,
        (aside_getOrCreateRoom w h name).duties⟩
      · rw [getOrCreateRoom, found]
        rfl
      · rw [getOrCreateRoom, found] at held
        exact registered.inHand? k c held
      · rw [getOrCreateRoom, found]
        exact registered.session? k sessionId
      · rw [pool_getOrCreateRoom found, Jobs.Pool.find?_getOrCreate,
          if_neg (roomQueueName_ne name k).symm]

theorem steady_enterRoom (w : World) (h : HallRef) (name : String) (c : ClientRef) :
    Steady w (w.enterRoom h name c).1 :=
  ((steady_getOrCreateRoom w h name).trans (steady_modifyRoom _ _ _)).trans
    (steady_pushToRoom _ _ _)

/-- A room and its queue are struck off, and no session. -/
theorem steady_strike (w : World) (room : Room) : Steady w (w.strike room) := by
  have struck : Steady w (w.withPool (w.pool.remove (roomQueueName room.name)).1) := by
    refine ⟨fun _ => rfl, fun _ _ => id, fun _ _ => rfl, fun k => ?_, fun _ => rfl⟩
    have removed := Jobs.Pool.find?_remove (p := w.pool) (roomQueueName room.name)
      (sessionQueueName k)
    rwa [if_neg (roomQueueName_ne room.name k).symm] at removed
  exact struck.trans (steady_modifyHall _ _ (fun _ => rfl) fun _ _ => id)

theorem steady_performRoomTask (w : World) (r : RoomRef) (task : RoomTask) :
    Steady w (w.performRoomTask r task) := by
  rw [performRoomTask.eq_def]
  cases task with
  | enter c =>
      dsimp only
      split
      · exact Steady.refl w
      · exact (steady_modifyRoom w r _).trans (steady_sendUpdate _ _ _ _)
  | leave playerId =>
      dsimp only
      split
      · exact (steady_modifyRoom w r _).trans (steady_sendUpdate _ _ _ _)
      · exact steady_modifyRoom w r _
  | say playerId message => exact steady_broadcast _ _ _
  | announce => exact steady_sendUpdate _ _ _ _
  | tidy =>
      dsimp only
      rcases removeIfVacant_cases w r with same | ⟨room, -, -, -, struck⟩
      · rw [same]
      · rw [struck]
        exact steady_strike w room

end World

end ChatHall.Server
