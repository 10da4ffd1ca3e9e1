/-
# Look-ups in a house

What the operations on the halls, rooms and clients do to each of them. Most of
what happens concerns neither the rooms nor the queues: a calm step leaves them
as they are, and with them the identity and the place of every client.
-/

import ChatHall.Proofs.Jobs.Pool
import ChatHall.Server.Course

namespace ChatHall.Server

/-- What a client is from its beginning to its end. -/
structure Standing where
  hall : HallRef
  sessionId : Nat
  queue : Jobs.QueueRef
  deriving Repr, DecidableEq

def Client.standing (c : Client) : Standing := ⟨c.hall, c.sessionId, c.queue⟩

/-- What of a hall concerns its rooms and the identity of its clients. -/
structure Register where
  defaultRoom : String
  rooms : Table String RoomRef
  nextSessionId : Nat
  deriving Repr, DecidableEq

def Hall.register (h : Hall) : Register := ⟨h.defaultRoom, h.rooms, h.nextSessionId⟩

namespace World

variable {w v u : World}

def standing? (w : World) (c : ClientRef) : Option Standing := (w.client? c).map Client.standing

/-- The room a client is in, by its own account. -/
def seat? (w : World) (c : ClientRef) : Option RoomRef := (w.client? c).bind Client.room

def register? (w : World) (h : HallRef) : Option Register := (w.hall? h).map Hall.register

theorem standing?_of_client {c : ClientRef} {client : Client} (found : w.client? c = some client) :
    w.standing? c = some client.standing := by
  rw [standing?, found]
  rfl

theorem findRoom?_eq (w : World) (h : HallRef) (name : String) :
    w.findRoom? h name = (w.register? h).bind fun register => register.rooms.find? name := by
  rw [findRoom?, register?]
  cases w.hall? h <;> rfl

/-! ## Changes of one client, room or hall -/

theorem client?_modifyClient (w : World) (c d : ClientRef) (f : Client → Client) :
    (w.modifyClient c f).client? d = if c = d then (w.client? d).map f else w.client? d :=
  getElem?_modify_eq w.state.clients c d f

theorem room?_modifyRoom (w : World) (r s : RoomRef) (f : Room → Room) :
    (w.modifyRoom r f).room? s = if r = s then (w.room? s).map f else w.room? s :=
  getElem?_modify_eq w.state.rooms r s f

theorem hall?_modifyHall (w : World) (h k : HallRef) (f : Hall → Hall) :
    (w.modifyHall h f).hall? k = if h = k then (w.hall? k).map f else w.hall? k :=
  getElem?_modify_eq w.state.halls h k f

theorem standing?_modifyClient (w : World) (c d : ClientRef) {f : Client → Client}
    (keeps : ∀ client, (f client).standing = client.standing) :
    (w.modifyClient c f).standing? d = w.standing? d := by
  rw [standing?, standing?, client?_modifyClient]
  split
  · rw [Option.map_map]
    exact congrFun (congrArg Option.map (funext keeps)) _
  · rfl

theorem seat?_modifyClient (w : World) (c d : ClientRef) (f : Client → Client) :
    (w.modifyClient c f).seat? d =
      if c = d then (w.client? d).bind fun client => (f client).room else w.seat? d := by
  rw [seat?, seat?, client?_modifyClient]
  split
  · exact Option.bind_map
  · rfl

theorem register?_modifyHall (w : World) (h k : HallRef) {f : Hall → Hall}
    {g : Register → Register} (acts : ∀ hall, (f hall).register = g hall.register) :
    (w.modifyHall h f).register? k = if h = k then (w.register? k).map g else w.register? k := by
  rw [register?, register?, hall?_modifyHall]
  split
  · rw [Option.map_map, Option.map_map]
    exact congrFun (congrArg Option.map (funext acts)) _
  · rfl

/-! ## Calm steps -/

/-- The rooms, the queues, and the identity and the place of the clients are as before. -/
structure Calm (w v : World) : Prop where
  pool : v.pool = w.pool
  room? : ∀ r, v.room? r = w.room? r
  standing? : ∀ c, v.standing? c = w.standing? c
  seat? : ∀ c, v.seat? c = w.seat? c
  register? : ∀ h, v.register? h = w.register? h

@[refl]
theorem Calm.refl (w : World) : Calm w w := ⟨rfl, fun _ => rfl, fun _ => rfl, fun _ => rfl, fun _ => rfl⟩

theorem Calm.trans (h : Calm w v) (k : Calm v u) : Calm w u where
  pool := k.pool.trans h.pool
  room? r := (k.room? r).trans (h.room? r)
  standing? c := (k.standing? c).trans (h.standing? c)
  seat? c := (k.seat? c).trans (h.seat? c)
  register? i := (k.register? i).trans (h.register? i)

theorem calm_modifyClient (w : World) (c : ClientRef) {f : Client → Client}
    (standing : ∀ client, (f client).standing = client.standing)
    (room : ∀ client, (f client).room = client.room) : Calm w (w.modifyClient c f) where
  pool := rfl
  room? _ := rfl
  standing? d := standing?_modifyClient w c d standing
  seat? d := by
    rw [seat?_modifyClient]
    split
    · exact congrArg _ (funext room)
    · rfl
  register? _ := rfl

theorem calm_modifyHall (w : World) (h : HallRef) {f : Hall → Hall}
    (register : ∀ hall, (f hall).register = hall.register) : Calm w (w.modifyHall h f) where
  pool := rfl
  room? _ := rfl
  standing? _ := rfl
  seat? _ := rfl
  register? k := by
    rw [register?_modifyHall w h k (g := id) register, Option.map_id]
    exact ite_self _

theorem calm_send {c : ClientRef} {o : Outgoing} (sent : w.send c o = .ok v) : Calm w v := by
  rw [send] at sent
  cases found : w.client? c with
  | none =>
      rw [found] at sent
      exact Except.ok.inj sent ▸ Calm.refl w
  | some client =>
      simp only [found] at sent
      split at sent
      · contradiction
      · exact Except.ok.inj sent ▸ calm_modifyClient w c (fun _ => rfl) fun _ => rfl

theorem calm_trySend (w : World) (c : ClientRef) (o : Outgoing) : Calm w (w.trySend c o) := by
  rw [trySend]
  split
  · next sent => exact calm_send sent
  · exact Calm.refl w

theorem calm_foldl_trySend (clients : List ClientRef) (o : Outgoing) (w : World) :
    Calm w (clients.foldl (fun w c => w.trySend c o) w) := by
  induction clients generalizing w with
  | nil => exact Calm.refl w
  | cons c later ih => exact (calm_trySend w c o).trans (ih _)

theorem calm_broadcast (w : World) (r : RoomRef) (o : Outgoing) : Calm w (w.broadcast r o) := by
  rw [broadcast]
  split
  · exact calm_foldl_trySend _ _ _
  · exact Calm.refl w

theorem calm_sendUpdate (w : World) (r : RoomRef) (event : Chat.RoomEvent) (playerId : Option Nat) :
    Calm w (w.sendUpdate r event playerId) := by
  rw [sendUpdate]
  split
  · exact calm_broadcast _ _ _
  · exact Calm.refl w

theorem calm_answer (w : World) (c : ClientRef) (response : Chat.Response) :
    Calm w (w.answer c response).1 := by
  rw [answer]
  split
  · next sent => exact calm_send sent
  · exact Calm.refl w

theorem calm_reject (w : World) (c : ClientRef) (e : Chat.Error) : Calm w (w.reject c e).1 :=
  calm_trySend w c _

theorem calm_close (w : World) (c : ClientRef) : Calm w (w.close c) :=
  calm_modifyClient w c (fun _ => by split <;> rfl) fun _ => by split <;> rfl

end World

end ChatHall.Server
