/-
# Names of queues

Whatever a name stands for in the register of the queues has that name, and a room works on
a queue that has the name for its room. So no room shares its queue with a session.
-/

import ChatHall.Proofs.Server.Registry

namespace ChatHall.Server.World

variable {w v : World} {deeds : List Deed} {past : List (RoomRef × RoomTask)}

/-- The queues have the names under which they are registered, those of the rooms the names for
these. -/
structure Titled (w : World) : Prop where
  key : ∀ name q, w.pool.find? name = some q → w.queueName? q = some name
  room : ∀ r room, w.room? r = some room →
    w.queueName? room.queue = some (roomQueueName room.name)

theorem titled_empty : Titled empty where
  key _ _ found := nomatch found
  room _ _ found := nomatch found

/-- What is found under a name was found before, or has just been given that name. -/
theorem Move.find? (move : Move w deeds v) (furnished : Furnished w) {name : String}
    {k : Jobs.QueueRef} (found : v.pool.find? name = some k) :
    w.pool.find? name = some k ∨ v.queueName? k = some name := by
  have removed (gone : String) (left : (w.pool.remove gone).1.find? name = some k) :
      w.pool.find? name = some k := by
    rw [Jobs.Pool.find?_remove] at left
    split at left
    · contradiction
    · exact left
  cases move with
  | quiet quiet => exact .inl ((quiet.find? name).symm.trans found)
  | openHall => exact .inl found
  | makeRoom h asked known absent =>
      rw [queueName?, pool_getOrCreateRoom absent]
      rw [pool_getOrCreateRoom absent] at found
      cases before : w.pool.find? (roomQueueName asked) with
      | some q =>
          rw [Jobs.Pool.getOrCreate, before] at found
          exact .inl found
      | none =>
          have created := Jobs.Pool.queue?_create (p := w.pool) (roomQueueName asked)
            w.pool.queues.length
          rw [Jobs.Pool.find?_getOrCreate] at found
          split at found
          · next same =>
              right
              obtain rfl := Option.some.inj found
              rw [Jobs.Pool.getOrCreate, before, Jobs.Pool.insertIfAbsent, before, same]
              exact congrArg _ (created.trans (if_pos rfl))
          · exact .inl found
  | newClient h hall known =>
      rw [pool_newClient known] at found
      exact .inl found
  | name c client known =>
      obtain ⟨queue, there, -⟩ := Option.map_eq_some_iff.1
        (furnished.queueOfClient c _ (standing?_of_client known))
      have registered := Jobs.Pool.find?_register there name
      rw [show (w.withPool (w.pool.register client.queue)).pool.find? name =
        (w.pool.register client.standing.queue).find? name from rfl, registered] at found
      split at found
      · next same =>
          right
          obtain rfl := Option.some.inj found
          rw [queueName?, same]
          have kept := Jobs.Pool.queue?_register (p := w.pool) client.queue client.standing.queue
          exact congrArg _ (kept.trans there)
      · exact .inl found
  | unname sessionId => exact .inl (removed _ found)
  | enter h asked r c =>
      have same : (w.pushEnter r c).pool.find? name = w.pool.find? name :=
        find?_pushToRoom _ r (.enter c) name
      exact .inl (same.symm.trans found)
  | push r _ task => exact .inl ((find?_pushToRoom w r task name).symm.trans found)
  | strike q r room => exact .inl (removed _ found)
  | run => exact .inl found

theorem Titled.move (h : Titled w) (furnished : Furnished w) (move : Move w deeds v) :
    Titled v := by
  have key (name : String) (k : Jobs.QueueRef) (found : v.pool.find? name = some k) :
      v.queueName? k = some name := by
    rcases move.find? furnished found with before | given
    · exact move.queueName (h.key name k before)
    · exact given
  refine ⟨key, fun r room found => ?_⟩
  cases before : w.room? r with
  | none =>
      obtain ⟨-, made⟩ := move.madeRoom before found
      apply key
      rw [made.world, pool_getOrCreateRoom made.absent, Jobs.Pool.find?_getOrCreate, if_pos rfl]
      rw [made.room]
  | some old =>
      obtain ⟨now, known, -, name, queue⟩ := move.room before
      obtain rfl := Option.some.inj (known.symm.trans found)
      rw [name, queue]
      exact move.queueName (h.room r old before)

theorem Titled.moves (h : Titled w) (furnished : Furnished w) (moves : Moves w deeds v) :
    Titled v := by
  induction moves with
  | refl => exact h
  | step moves last ih => exact ih.move (furnished.moves moves) last

theorem titled_of_opened {defaultRooms : List String} {events : List Event}
    (course : (opened defaultRooms).afterAll? events = some w) : Titled w := by
  let P (past : List (RoomRef × RoomTask)) (w : World) : Prop := InOrder past w ∧ Titled w
  have start : P [] (opened defaultRooms) :=
    ⟨inOrder_opened defaultRooms, titled_empty.moves furnished_empty (moves_opened defaultRooms)⟩
  refine (course_induction (P := P) ?_ start course).2
  rintro past w e v - ⟨inOrder, titled⟩ after
  obtain ⟨deeds, change⟩ := change_of_after? inOrder.furnished after
  exact ⟨inOrder.after after, titled.moves inOrder.furnished change.moves⟩

end ChatHall.Server.World
