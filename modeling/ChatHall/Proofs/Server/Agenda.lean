/-
# What the queues have still to do for the rooms

A queue owes a room the tasks that have been pushed for it and not performed,
those that a drain has taken included. This, the names, the rooms, and the
identity of halls and clients are all that the register of rooms depends on: a
step that leaves them as they are is a quiet one, and most steps of the sessions
and of the drains are.
-/

import ChatHall.Proofs.Server.House

namespace ChatHall.Server

def Job.roomTask? : Job → Option (RoomRef × RoomTask)
  | room r task => some (r, task)
  | _ => none

def tasksOf (r : RoomRef) (entries : List (RoomRef × RoomTask)) : List RoomTask :=
  entries.filterMap fun e => if e.1 = r then some e.2 else none

@[simp]
theorem tasksOf_nil (r : RoomRef) : tasksOf r [] = [] := rfl

@[simp]
theorem tasksOf_append (r : RoomRef) (entries later : List (RoomRef × RoomTask)) :
    tasksOf r (entries ++ later) = tasksOf r entries ++ tasksOf r later :=
  List.filterMap_append

theorem tasksOf_cons (r : RoomRef) (e : RoomRef × RoomTask) (later : List (RoomRef × RoomTask)) :
    tasksOf r (e :: later) = if e.1 = r then e.2 :: tasksOf r later else tasksOf r later := by
  rw [tasksOf, List.filterMap_cons]
  by_cases here : e.1 = r
  · rw [if_pos here, if_pos here]
    rfl
  · rw [if_neg here, if_neg here]
    rfl

theorem mem_tasksOf {r : RoomRef} {task : RoomTask} {entries : List (RoomRef × RoomTask)} :
    task ∈ tasksOf r entries ↔ (r, task) ∈ entries := by
  rw [tasksOf, List.mem_filterMap]
  constructor
  · rintro ⟨⟨s, other⟩, listed, found⟩
    simp only [Option.ite_none_right_eq_some, Option.some.injEq] at found
    obtain ⟨rfl, rfl⟩ := found
    exact listed
  · intro listed
    exact ⟨(r, task), listed, if_pos rfl⟩

namespace World

variable {w v u : World}

/-- What a queue has still to do for rooms, oldest first. -/
def agenda? (w : World) (q : Jobs.QueueRef) : Option (List (RoomRef × RoomTask)) :=
  (w.pool.queue? q).map fun queue => queue.outstanding.filterMap Job.roomTask?

def queueName? (w : World) (q : Jobs.QueueRef) : Option String :=
  (w.pool.queue? q).map Jobs.Queue.name

/-- The tasks of a room that are queued, or taken and not performed. -/
def queued (w : World) (r : RoomRef) : List RoomTask :=
  (((w.room? r).bind fun room => w.agenda? room.queue).map (tasksOf r)).getD []

theorem queued_of_room {r : RoomRef} {room : Room} (found : w.room? r = some room) :
    w.queued r = ((w.agenda? room.queue).map (tasksOf r)).getD [] := by
  rw [queued, found]
  rfl

theorem queued_of_none {r : RoomRef} (missing : w.room? r = none) : w.queued r = [] := by
  rw [queued, missing]
  rfl

/-- The register of rooms, and what is to be done about it, are as before. -/
structure Quiet (w v : World) : Prop where
  agenda? : ∀ q, v.agenda? q = w.agenda? q
  queueName? : ∀ q, v.queueName? q = w.queueName? q
  find? : ∀ name, v.pool.find? name = w.pool.find? name
  room? : ∀ r, v.room? r = w.room? r
  standing? : ∀ c, v.standing? c = w.standing? c
  register? : ∀ h, v.register? h = w.register? h
  serial : w.pool.Serial → v.pool.Serial

theorem Calm.quiet (h : Calm w v) : Quiet w v where
  agenda? q := by rw [World.agenda?, h.pool, World.agenda?]
  queueName? q := by rw [World.queueName?, h.pool, World.queueName?]
  find? name := by rw [h.pool]
  room? := h.room?
  standing? := h.standing?
  register? := h.register?
  serial serial := h.pool ▸ serial

theorem Quiet.trans (first : Quiet w v) (second : Quiet v u) : Quiet w u where
  agenda? q := (second.agenda? q).trans (first.agenda? q)
  queueName? q := (second.queueName? q).trans (first.queueName? q)
  find? name := (second.find? name).trans (first.find? name)
  room? r := (second.room? r).trans (first.room? r)
  standing? c := (second.standing? c).trans (first.standing? c)
  register? h := (second.register? h).trans (first.register? h)
  serial serial := second.serial (first.serial serial)

theorem Quiet.findRoom? (h : Quiet w v) (i : HallRef) (name : String) :
    v.findRoom? i name = w.findRoom? i name := by
  rw [findRoom?_eq, findRoom?_eq, h.register?]

theorem quiet_modifyClient (w : World) (c : ClientRef) {f : Client → Client}
    (standing : ∀ client, (f client).standing = client.standing) : Quiet w (w.modifyClient c f) where
  agenda? _ := rfl
  queueName? _ := rfl
  find? _ := rfl
  room? _ := rfl
  standing? d := standing?_modifyClient w c d standing
  register? _ := rfl
  serial serial := serial

/-! ## Steps of one queue -/

/-- A step of a queue that does nothing for a room. -/
theorem quiet_modify (w : World) (q : Jobs.QueueRef) {f : Jobs.Queue Job → Jobs.Queue Job}
    (keeps : ∀ queue, w.pool.queue? q = some queue →
      (f queue).name = queue.name ∧ (queue.Serial → (f queue).Serial) ∧
      (f queue).outstanding.filterMap Job.roomTask? =
        queue.outstanding.filterMap Job.roomTask?) :
    Quiet w (w.updatePool (·.modify q f)) where
  agenda? k := by
    rw [World.agenda?, World.agenda?, Jobs.Realm.updatePool, Jobs.Pool.queue?_modify]
    split
    · next same =>
        subst same
        cases found : w.pool.queue? q with
        | none => rfl
        | some queue => exact congrArg some (keeps queue found).2.2
    · rfl
  queueName? k := by
    rw [World.queueName?, World.queueName?, Jobs.Realm.updatePool, Jobs.Pool.queue?_modify]
    split
    · next same =>
        subst same
        cases found : w.pool.queue? q with
        | none => rfl
        | some queue => exact congrArg some (keeps queue found).1
    · rfl
  find? _ := rfl
  room? _ := rfl
  standing? _ := rfl
  register? _ := rfl
  serial serial := serial.modify fun queue found => (keeps queue found).2.1

/-- A job for no room is pushed. -/
theorem quiet_push (w : World) (q : Jobs.QueueRef) {job : Job} (other : job.roomTask? = none) :
    Quiet w (w.push q job) :=
  quiet_modify w q fun queue _ =>
    ⟨Jobs.Queue.name_push job, fun serial => serial.push job, by simp [other]⟩

theorem quiet_pushToSession (w : World) (c : ClientRef) (task : SessionTask) :
    Quiet w (w.pushToSession c task) := by
  rw [pushToSession]
  split
  · exact quiet_push w _ rfl
  · exact (Calm.refl w).quiet

section Drain

variable {q : Jobs.QueueRef} {i : Nat} {job : Job} {queue : Jobs.Queue Job}

theorem quiet_fetch (serial : w.pool.Serial) (found : w.pool.queue? q = some queue)
    (alive : queue.drains[i]? = some .fetching) :
    Quiet w (w.updatePool (·.modify q (·.fetch i))) := by
  refine quiet_modify w q fun other same => ?_
  obtain rfl := Option.some.inj (found.symm.trans same)
  have served := serial q queue found
  exact ⟨Jobs.Queue.name_fetch i, fun h => h.fetch i alive, by rw [served.outstanding_fetch alive]⟩

theorem quiet_recheck (serial : w.pool.Serial) (found : w.pool.queue? q = some queue)
    (alive : queue.drains[i]? = some .rechecking) :
    Quiet w (w.updatePool (·.modify q (·.recheck i))) := by
  refine quiet_modify w q fun other same => ?_
  obtain rfl := Option.some.inj (found.symm.trans same)
  have served := serial q queue found
  exact ⟨Jobs.Queue.name_recheck i, fun h => h.recheck i alive,
    by rw [served.outstanding_recheck alive]⟩

/-- A job for no room comes to its end. -/
theorem quiet_finish (serial : w.pool.Serial) (found : w.pool.queue? q = some queue)
    (alive : queue.drains[i]? = some (.executing job)) (other : job.roomTask? = none)
    (outcome : Except Jobs.Failure Unit) :
    Quiet w (w.updatePool (·.modify q (·.finish i outcome))) := by
  refine quiet_modify w q fun _ same => ?_
  obtain rfl := Option.some.inj (found.symm.trans same)
  have done := (serial q queue found).outstanding_finish alive outcome
  refine ⟨Jobs.Queue.name_finish i outcome, fun h => h.finish i outcome, ?_⟩
  rw [done, List.filterMap_cons, other]

/-- A job for no room goes on with another stage. -/
theorem quiet_setPhase (serial : w.pool.Serial) (found : w.pool.queue? q = some queue)
    (alive : queue.drains[i]? = some (.executing job)) (other : job.roomTask? = none)
    {next : Job} (later : next.roomTask? = none) :
    Quiet w (w.updatePool (·.modify q (·.setPhase i (.executing next)))) := by
  refine quiet_modify w q fun _ same => ?_
  obtain rfl := Option.some.inj (found.symm.trans same)
  have served := serial q queue found
  refine ⟨rfl, fun h => h.setPhase i _, ?_⟩
  rw [Jobs.Queue.outstanding, Jobs.Queue.outstanding, served.executing_eq alive,
    served.executing_setPhase alive]
  simp [Jobs.Phase.job?, Jobs.Queue.setPhase, other, later]

end Drain

end World

end ChatHall.Server
