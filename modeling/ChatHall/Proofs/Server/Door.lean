/-
# Doors

Whether a hall still accepts connections, and whom its shutdown has still to
disconnect. Only the steps of a shutdown touch either: whatever is done in the rooms
of a hall or for its sessions leaves its door as it is.
-/

import ChatHall.Proofs.Server.House

namespace ChatHall.Server

/-- What of a hall concerns its shutdown. -/
structure Door where
  accepting : Bool
  dismissing : Option (List ClientRef)
  deriving Repr, DecidableEq

def Hall.door (h : Hall) : Door := ⟨h.accepting, h.dismissing⟩

namespace World

variable {w v u : World}

def door? (w : World) (h : HallRef) : Option Door := (w.hall? h).map Hall.door

theorem door?_modifyHall (w : World) (h k : HallRef) {f : Hall → Hall} {g : Door → Door}
    (acts : ∀ hall, (f hall).door = g hall.door) :
    (w.modifyHall h f).door? k = if h = k then (w.door? k).map g else w.door? k := by
  rw [door?, door?, hall?_modifyHall]
  split
  · rw [Option.map_map, Option.map_map]
    exact congrFun (congrArg Option.map (funext acts)) _
  · rfl

/-- The doors of all halls are as before. -/
def Doors (w v : World) : Prop := ∀ h, v.door? h = w.door? h

@[refl]
theorem Doors.refl (w : World) : Doors w w := fun _ => rfl

theorem Doors.trans (first : Doors w v) (second : Doors v u) : Doors w u :=
  fun h => (second h).trans (first h)

theorem doors_of_halls (same : v.state.halls = w.state.halls) : Doors w v := by
  intro h
  rw [door?, hall?, same, door?, hall?]

theorem doors_modifyHall (w : World) (h : HallRef) {f : Hall → Hall}
    (same : ∀ hall, (f hall).door = hall.door) : Doors w (w.modifyHall h f) := by
  intro k
  rw [door?_modifyHall w h k (g := id) same, Option.map_id]
  exact ite_self _

/-- A step that changes one hall, but not its door. -/
theorem doors_of_modify {h : HallRef} {f : Hall → Hall}
    (halls : v.state.halls = w.state.halls.modify h f)
    (same : ∀ hall, (f hall).door = hall.door) : Doors w v :=
  (doors_modifyHall w h same).trans (doors_of_halls halls)

theorem doors_modifyClient (w : World) (c : ClientRef) (f : Client → Client) :
    Doors w (w.modifyClient c f) := doors_of_halls rfl

theorem doors_modifyRoom (w : World) (r : RoomRef) (f : Room → Room) :
    Doors w (w.modifyRoom r f) := doors_of_halls rfl

theorem door?_openHall (w : World) (defaultRoom : String) (h : HallRef) :
    (w.openHall defaultRoom).1.door? h =
      if h = w.state.halls.length then some ⟨true, none⟩ else w.door? h := by
  have halls : (w.openHall defaultRoom).1.hall? h =
      if h = w.state.halls.length then some { defaultRoom } else w.hall? h :=
    getElem?_append_singleton w.state.halls _ h
  rw [door?, halls, door?]
  split <;> rfl

/-! ## Sending -/

theorem doors_send {c : ClientRef} {o : Outgoing} (sent : w.send c o = .ok v) : Doors w v := by
  rw [send] at sent
  cases found : w.client? c with
  | none =>
      rw [found] at sent
      exact Except.ok.inj sent ▸ Doors.refl w
  | some client =>
      simp only [found] at sent
      split at sent
      · contradiction
      · exact Except.ok.inj sent ▸ doors_modifyClient w c _

theorem doors_trySend (w : World) (c : ClientRef) (o : Outgoing) : Doors w (w.trySend c o) := by
  rw [trySend]
  split
  · next sent => exact doors_send sent
  · exact Doors.refl w

theorem doors_foldl_trySend (clients : List ClientRef) (o : Outgoing) (w : World) :
    Doors w (clients.foldl (fun w c => w.trySend c o) w) := by
  induction clients generalizing w with
  | nil => exact Doors.refl w
  | cons c later ih => exact (doors_trySend w c o).trans (ih _)

theorem doors_broadcast (w : World) (r : RoomRef) (o : Outgoing) : Doors w (w.broadcast r o) := by
  rw [broadcast]
  split
  · exact doors_foldl_trySend _ _ _
  · exact Doors.refl w

theorem doors_sendUpdate (w : World) (r : RoomRef) (event : Chat.RoomEvent)
    (playerId : Option Nat) : Doors w (w.sendUpdate r event playerId) := by
  rw [sendUpdate]
  split
  · exact doors_broadcast _ _ _
  · exact Doors.refl w

theorem doors_answer (w : World) (c : ClientRef) (response : Chat.Response) :
    Doors w (w.answer c response).1 := by
  rw [answer]
  split
  · next sent => exact doors_send sent
  · exact Doors.refl w

theorem doors_reject (w : World) (c : ClientRef) (e : Chat.Error) : Doors w (w.reject c e).1 :=
  doors_trySend w c _

/-! ## Rooms -/

theorem doors_pushToRoom (w : World) (r : RoomRef) (task : RoomTask) :
    Doors w (w.pushToRoom r task) := by
  rw [pushToRoom]
  split <;> exact doors_of_halls rfl

theorem doors_pushToSession (w : World) (c : ClientRef) (task : SessionTask) :
    Doors w (w.pushToSession c task) := by
  rw [pushToSession]
  split <;> exact doors_of_halls rfl

theorem doors_pushTidy (w : World) (r : RoomRef) : Doors w (w.pushTidy r) := by
  rw [pushTidy]
  split
  · split
    · exact Doors.refl w
    · exact doors_pushToRoom w r .tidy
  · exact Doors.refl w

theorem doors_getOrCreateRoom (w : World) (h : HallRef) (name : String) :
    Doors w (w.getOrCreateRoom h name).1 := by
  rw [getOrCreateRoom]
  split
  · exact Doors.refl w
  · exact Doors.trans (doors_of_halls rfl) (doors_modifyHall _ h fun _ => rfl)

theorem doors_enterRoom (w : World) (h : HallRef) (name : String) (c : ClientRef) :
    Doors w (w.enterRoom h name c).1 :=
  ((doors_getOrCreateRoom w h name).trans (doors_modifyRoom _ _ _)).trans (doors_pushToRoom _ _ _)

theorem doors_removeIfVacant (w : World) (r : RoomRef) : Doors w (w.removeIfVacant r) := by
  rw [removeIfVacant]
  split
  · exact Doors.refl w
  · split
    · exact Doors.trans (doors_of_halls rfl) (doors_modifyHall _ _ fun _ => rfl)
    · exact Doors.refl w

theorem doors_performRoomTask (w : World) (r : RoomRef) (task : RoomTask) :
    Doors w (w.performRoomTask r task) := by
  rw [performRoomTask.eq_def]
  cases task with
  | enter c =>
      dsimp only
      split
      · exact Doors.refl w
      · exact (doors_modifyRoom w r _).trans (doors_sendUpdate _ _ _ _)
  | leave playerId =>
      dsimp only
      split
      · exact (doors_modifyRoom w r _).trans (doors_sendUpdate _ _ _ _)
      · exact doors_modifyRoom w r _
  | say playerId message => exact doors_broadcast _ _ _
  | announce => exact doors_sendUpdate _ _ _ _
  | tidy => exact doors_removeIfVacant w r

end World

end ChatHall.Server
