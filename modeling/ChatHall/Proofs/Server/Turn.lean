/-
# What an event comes down to

Every event is a number of moves, and for the sessions it is one of a few turns:
nothing happens to their jobs, a client comes, a job is pushed to the queue of a
session, a drain takes one, or a job of a session acts. What is performed for
the rooms in a course of events is known from the events alone.
-/

import ChatHall.Proofs.Server.Stage

namespace ChatHall.Server

/-- Whether somebody asks a client in or out past the queue of its session. -/
def Event.isDirect : Event → Bool
  | enterRoom .. | leaveRoom .. => true
  | _ => false

def SessionTask.isCall : SessionTask → Bool
  | welcome | packet .. | command _ | farewell => true
  | _ => false

theorem SessionTask.of_isCall {task : SessionTask} (call : task.isCall = true) :
    task.destination? = none ∧ task.isBetween = false := by
  cases task with
  | leaving n => contradiction
  | tidying r n => contradiction
  | going n => contradiction
  | arriving r name asked => contradiction
  | _ => exact ⟨rfl, rfl⟩

namespace World

variable {w v u : World}

def performs? (w : World) : Event → Option (RoomRef × RoomTask)
  | .work q i =>
    match Jobs.Realm.phase? w q i with
    | some (.executing job) => job.roomTask?
    | _ => none
  | _ => none

def performed (w : World) : List Event → List (RoomRef × RoomTask)
  | [] => []
  | e :: later =>
    (w.performs? e).toList ++ ((w.after? e).map fun v => performed v later).getD []

/-- Nothing happens to the jobs of the sessions. -/
structure Still (w v : World) : Prop where
  standing? : ∀ d, v.standing? d = w.standing? d
  seat? : ∀ d, v.seat? d = w.seat? d
  performing : ∀ q, v.performing q = w.performing q
  awaiting : ∀ q, v.awaiting q = w.awaiting q

theorem Still.trans (first : Still w v) (second : Still v u) : Still w u where
  standing? d := (second.standing? d).trans (first.standing? d)
  seat? d := (second.seat? d).trans (first.seat? d)
  performing q := (second.performing q).trans (first.performing q)
  awaiting q := (second.awaiting q).trans (first.awaiting q)

theorem Aside.still (h : Aside w v) : Still w v where
  standing? := h.standing?
  seat? := h.seat?
  performing q := by rw [World.performing, h.executing, World.performing]
  awaiting := h.awaiting

/-- What an event does for the sessions. -/
inductive Turn (w : World) : List Deed → World → Prop
  | still {deeds : List Deed} {v : World} (still : NoMoves deeds) (same : Still w v) :
      Turn w deeds v
  | came {v : World} (h : HallRef) (hall : Hall) (found : w.hall? h = some hall)
      (same : Still (w.newClient h).1 v) : Turn w [] v
  | called {v : World} (c : ClientRef) (s : Standing) (task : SessionTask)
      (found : w.standing? c = some s) (call : task.isCall = true)
      (standing : ∀ d, v.standing? d = w.standing? d) (seat : ∀ d, v.seat? d = w.seat? d)
      (performing : ∀ q, v.performing q = w.performing q)
      (awaiting : ∀ q, v.awaiting q =
        if s.queue = q then w.awaiting q ++ [(c, task)] else w.awaiting q) : Turn w [] v
  | fetched {v : World} (q : Jobs.QueueRef) (free : w.performing q = [])
      (standing : ∀ d, v.standing? d = w.standing? d) (seat : ∀ d, v.seat? d = w.seat? d)
      (taken : v.performing q = [] ∧ v.awaiting q = w.awaiting q ∨
        ∃ e, v.performing q = [e] ∧ w.awaiting q = e :: v.awaiting q)
      (performing : ∀ k, k ≠ q → v.performing k = w.performing k)
      (awaiting : ∀ k, k ≠ q → v.awaiting k = w.awaiting k) : Turn w [] v
  | acted {deeds : List Deed} {v : World} (q : Jobs.QueueRef) (c : ClientRef) (s : Standing)
      (task : SessionTask) (seat : Option RoomRef) (next : Option SessionTask)
      (none_run : ranIn deeds = []) (found : w.standing? c = some s) (busy : w.performing q = [(c, task)])
      (act : Act w c s v task deeds seat next)
      (standing : ∀ d, v.standing? d = w.standing? d)
      (seats : ∀ d, v.seat? d = if d = c then seat else w.seat? d)
      (performing : ∀ k, v.performing k =
        if q = k then next.toList.map (c, ·) else w.performing k)
      (awaiting : ∀ k, v.awaiting k = w.awaiting k) : Turn w deeds v
  /-- The client of the job is not there. -/
  | lost {v : World} (q : Jobs.QueueRef) (c : ClientRef) (task : SessionTask)
      (busy : w.performing q = [(c, task)]) (missing : w.standing? c = none) : Turn w [] v

/-- What is known of an event. -/
structure Change (w : World) (e : Event) (v : World) (deeds : List Deed) : Prop where
  moves : Moves w deeds v
  ran : ranIn deeds = (w.performs? e).toList
  turn : e.isDirect = false → Turn w deeds v

theorem Calm.change {e : Event} (calm : Calm w v) (idle : w.performs? e = none) :
    Change w e v [] where
  moves := calm.quiet.moves
  ran := by
    rw [idle]
    rfl
  turn _ := .still noMoves_nil calm.aside.still

/-! ## Steps of a drain -/

section Drain

variable {q : Jobs.QueueRef} {i : Nat} {job : Job} {queue : Jobs.Queue Job}

theorem executing_of_queue (found : w.pool.queue? q = some queue) :
    w.executing q = queue.executing := by
  rw [executing, found]
  rfl

theorem awaiting_of_queue (found : w.pool.queue? q = some queue) :
    w.awaiting q = queue.waiting.filterMap Job.sessionTask? := by
  rw [awaiting, found]
  rfl

theorem queue?_updatePool (found : w.pool.queue? q = some queue)
    (f : Jobs.Queue Job → Jobs.Queue Job) (k : Jobs.QueueRef) :
    (w.updatePool (·.modify q f)).pool.queue? k =
      if q = k then some (f queue) else w.pool.queue? k := by
  rw [Jobs.Realm.updatePool, Jobs.Pool.queue?_modify]
  split
  · next same => rw [← same, found, Option.map_some]
  · rfl

/-- A step of a queue changes what is executed and what waits there, and nowhere else. -/
theorem executing_updatePool (found : w.pool.queue? q = some queue)
    (f : Jobs.Queue Job → Jobs.Queue Job) (k : Jobs.QueueRef) :
    executing (w.updatePool (·.modify q f)) k =
      if q = k then (f queue).executing else w.executing k := by
  rw [executing, queue?_updatePool found f k]
  split <;> rfl

theorem awaiting_updatePool (found : w.pool.queue? q = some queue)
    (f : Jobs.Queue Job → Jobs.Queue Job) (k : Jobs.QueueRef) :
    awaiting (w.updatePool (·.modify q f)) k =
      if q = k then (f queue).waiting.filterMap Job.sessionTask? else w.awaiting k := by
  rw [awaiting, queue?_updatePool found f k]
  split <;> rfl

theorem phase?_eq_some {phase : Jobs.Phase Job} :
    Jobs.Realm.phase? w q i = some phase ↔
      ∃ queue, w.pool.queue? q = some queue ∧ queue.drains[i]? = some phase := by
  rw [Jobs.Realm.phase?, Option.bind_eq_some_iff]

theorem performing_of_alive (serial : w.pool.Serial) (found : w.pool.queue? q = some queue)
    (alive : queue.drains[i]? = some (.executing job)) :
    w.performing q = job.sessionTask?.toList := by
  rw [performing, executing_of_queue found, (serial q queue found).executing_eq alive]
  cases job <;> rfl

/-- A drain takes the oldest job. -/
theorem change_fetch (serial : w.pool.Serial) (found : w.pool.queue? q = some queue)
    (alive : queue.drains[i]? = some .fetching) :
    Change w (.work q i) (w.updatePool (·.modify q (·.fetch i))) [] := by
  have served := serial q queue found
  have fetching := phase?_eq_some.2 ⟨queue, found, alive⟩
  refine ⟨(quiet_fetch serial found alive).moves, ?_, fun _ => ?_⟩
  · rw [performs?, fetching]
    rfl
  refine .fetched q ?_ (fun _ => rfl) (fun _ => rfl) ?_ (fun k other => ?_) fun k other => ?_
  · rw [performing, executing_of_queue found, served.executing_eq alive]
    rfl
  · have taken := executing_updatePool found (fun queue => queue.fetch i) q
    have left := awaiting_updatePool found (fun queue => queue.fetch i) q
    rw [if_pos rfl] at taken left
    rw [performing, taken, left, awaiting_of_queue found]
    cases waiting : queue.waiting with
    | nil =>
        obtain ⟨hexecuting, hwaiting⟩ := served.fetch_nil alive waiting
        rw [hexecuting, hwaiting]
        exact .inl ⟨rfl, rfl⟩
    | cons job later =>
        obtain ⟨hexecuting, hwaiting⟩ := served.fetch_cons alive waiting
        rw [hexecuting, hwaiting]
        cases job with
        | session c task => exact .inr ⟨(c, task), rfl, rfl⟩
        | _ => exact .inl ⟨rfl, rfl⟩
  · have same := executing_updatePool found (fun queue => queue.fetch i) k
    rw [if_neg (Ne.symm other)] at same
    rw [performing, same, performing]
  · have same := awaiting_updatePool found (fun queue => queue.fetch i) k
    rwa [if_neg (Ne.symm other)] at same

/-- A drain looks again before it stops. -/
theorem change_recheck (serial : w.pool.Serial) (found : w.pool.queue? q = some queue)
    (alive : queue.drains[i]? = some .rechecking) :
    Change w (.work q i) (w.updatePool (·.modify q (·.recheck i))) [] := by
  have served := serial q queue found
  have rechecking := phase?_eq_some.2 ⟨queue, found, alive⟩
  obtain ⟨hexecuting, hwaiting⟩ := served.recheck_eq alive
  refine ⟨(quiet_recheck serial found alive).moves, ?_, fun _ => ?_⟩
  · rw [performs?, rechecking]
    rfl
  refine .still noMoves_nil ⟨fun _ => rfl, fun _ => rfl, fun k => ?_, fun k => ?_⟩
  · rw [performing, executing_updatePool found, hexecuting, performing]
    split
    · next same =>
        rw [← same, executing_of_queue found, served.executing_eq alive]
        rfl
    · rfl
  · rw [awaiting_updatePool found, hwaiting]
    split
    · next same => rw [← same, awaiting_of_queue found]
    · rfl

/-- The sessions once a drain has finished a job. -/
theorem sessions_finish (serial : w.pool.Serial) (found : w.pool.queue? q = some queue)
    (alive : queue.drains[i]? = some (.executing job)) (outcome : Except Jobs.Failure Unit)
    (k : Jobs.QueueRef) :
    performing (w.updatePool (·.modify q (·.finish i outcome))) k =
        (if q = k then [] else w.performing k) ∧
      awaiting (w.updatePool (·.modify q (·.finish i outcome))) k = w.awaiting k := by
  obtain ⟨hexecuting, hwaiting⟩ := (serial q queue found).finish_eq alive outcome
  constructor
  · rw [performing, executing_updatePool found, hexecuting, performing]
    split <;> rfl
  · rw [awaiting_updatePool found, hwaiting]
    split
    · next same => rw [← same, awaiting_of_queue found]
    · rfl

/-- The end of a job that is none of a session changes nothing for the sessions. -/
theorem still_finish (serial : w.pool.Serial) (found : w.pool.queue? q = some queue)
    (alive : queue.drains[i]? = some (.executing job)) (other : job.sessionTask? = none)
    (outcome : Except Jobs.Failure Unit) :
    Still w (w.updatePool (·.modify q (·.finish i outcome))) where
  standing? _ := rfl
  seat? _ := rfl
  performing k := by
    rw [(sessions_finish serial found alive outcome k).1]
    split
    · next same =>
        rw [← same, performing_of_alive serial found alive, other]
        rfl
    · rfl
  awaiting k := (sessions_finish serial found alive outcome k).2

/-- The sessions once a drain has put a job into its next stage. -/
theorem sessions_setPhase (serial : w.pool.Serial) (found : w.pool.queue? q = some queue)
    (alive : queue.drains[i]? = some (.executing job)) (next : Job) (k : Jobs.QueueRef) :
    performing (w.updatePool (·.modify q (·.setPhase i (.executing next)))) k =
        (if q = k then next.sessionTask?.toList else w.performing k) ∧
      awaiting (w.updatePool (·.modify q (·.setPhase i (.executing next)))) k = w.awaiting k := by
  have hexecuting := (serial q queue found).executing_setPhase alive (.executing next)
  constructor
  · rw [performing, executing_updatePool found, hexecuting, performing]
    split
    · cases next <;> rfl
    · rfl
  · rw [awaiting_updatePool found]
    split
    · next same => rw [← same, awaiting_of_queue found, Jobs.Queue.setPhase]
    · rfl

/-- A drain whose job ends counts it as done; a failure is reported besides. -/
theorem calm_of_finished {outcome : Except Jobs.Failure Unit}
    (phase : Jobs.Realm.phase? w q i = some (.executing job))
    (performed : perform q job w = (u, .finished outcome))
    (after : Jobs.Realm.advance? perform w q i = some v) :
    Calm (u.updatePool (·.modify q (·.finish i outcome))) v := by
  rw [Jobs.Realm.advance?, phase] at after
  simp only [performed] at after
  cases outcome with
  | ok _ => exact Option.some.inj after ▸ Calm.refl _
  | error failure =>
      obtain rfl := Option.some.inj after
      exact ⟨rfl, fun _ => rfl, fun _ => rfl, fun _ => rfl, fun _ => rfl⟩

theorem eq_of_finished {outcome : Except Jobs.Failure Unit}
    (phase : Jobs.Realm.phase? w q i = some (.executing job))
    (performed : perform q job w = (u, .finished outcome))
    (after : Jobs.Realm.advance? perform w q i = some v) :
    v.state = u.state ∧ v.pool = (u.updatePool (·.modify q (·.finish i outcome))).pool := by
  rw [Jobs.Realm.advance?, phase] at after
  simp only [performed] at after
  cases outcome with
  | ok _ => exact Option.some.inj after ▸ ⟨rfl, rfl⟩
  | error failure => exact Option.some.inj after ▸ ⟨rfl, rfl⟩

theorem eq_of_continues {next : Job} (phase : Jobs.Realm.phase? w q i = some (.executing job))
    (performed : perform q job w = (u, .continues next))
    (after : Jobs.Realm.advance? perform w q i = some v) :
    u.updatePool (·.modify q (·.setPhase i (.executing next))) = v := by
  rw [Jobs.Realm.advance?, phase] at after
  simp only [performed] at after
  exact Option.some.inj after

/-- What a step of drain `i` of a queue can do. -/
inductive Advances (w : World) (q : Jobs.QueueRef) (i : Nat) : World → Prop
  | fetches (phase : Jobs.Realm.phase? w q i = some .fetching) :
      Advances w q i (w.updatePool (·.modify q (·.fetch i)))
  | rechecks (phase : Jobs.Realm.phase? w q i = some .rechecking) :
      Advances w q i (w.updatePool (·.modify q (·.recheck i)))
  | finishes {job : Job} {outcome : Except Jobs.Failure Unit} {u v : World}
      (phase : Jobs.Realm.phase? w q i = some (.executing job))
      (performed : perform q job w = (u, .finished outcome)) (state : v.state = u.state)
      (pool : v.pool = (u.updatePool (·.modify q (·.finish i outcome))).pool) : Advances w q i v
  | continues {job next : Job} {u : World}
      (phase : Jobs.Realm.phase? w q i = some (.executing job))
      (performed : perform q job w = (u, .continues next)) :
      Advances w q i (u.updatePool (·.modify q (·.setPhase i (.executing next))))

theorem advances_of_advance? (after : Jobs.Realm.advance? perform w q i = some v) :
    Advances w q i v := by
  cases phase : Jobs.Realm.phase? w q i with
  | none =>
      rw [Jobs.Realm.advance?, phase] at after
      contradiction
  | some at_work =>
      cases at_work with
      | fetching =>
          rw [Jobs.Realm.advance?, phase] at after
          obtain rfl := Option.some.inj after
          exact .fetches phase
      | rechecking =>
          rw [Jobs.Realm.advance?, phase] at after
          obtain rfl := Option.some.inj after
          exact .rechecks phase
      | executing job =>
          cases performed : perform q job w with
          | mk u progress =>
              cases progress with
              | finished outcome =>
                  obtain ⟨state, pool⟩ := eq_of_finished phase performed after
                  exact .finishes phase performed state pool
              | continues next =>
                  obtain rfl := eq_of_continues phase performed after
                  exact .continues phase performed
              | blocked =>
                  rw [Jobs.Realm.advance?, phase] at after
                  simp only [performed] at after
                  contradiction

/-- A drain that moves takes a job, looks again, or is at a job. -/
theorem advance?_cases (after : Jobs.Realm.advance? perform w q i = some v) :
    Jobs.Realm.phase? w q i = some .fetching ∧ v = w.updatePool (·.modify q (·.fetch i)) ∨
      Jobs.Realm.phase? w q i = some .rechecking ∧ v = w.updatePool (·.modify q (·.recheck i)) ∨
        ∃ job, Jobs.Realm.phase? w q i = some (.executing job) := by
  cases advances_of_advance? after with
  | fetches phase => exact .inl ⟨phase, rfl⟩
  | rechecks phase => exact .inr (.inl ⟨phase, rfl⟩)
  | finishes phase _ _ _ => exact .inr (.inr ⟨_, phase⟩)
  | continues phase _ => exact .inr (.inr ⟨_, phase⟩)

theorem Calm.updatePool (h : Calm w v) (f : Jobs.Pool Job → Jobs.Pool Job) :
    Calm (w.updatePool f) (v.updatePool f) where
  pool := congrArg f h.pool
  room? := h.room?
  standing? := h.standing?
  seat? := h.seat?
  register? := h.register?

/-! ## Jobs of rooms -/

theorem queue?_performRoomTask (w : World) (r : RoomRef) (task : RoomTask) (k : Jobs.QueueRef) :
    (w.performRoomTask r task).pool.queue? k = w.pool.queue? k := by
  by_cases tidies : task = .tidy
  · subst tidies
    rcases removeIfVacant_cases w r with same | ⟨room, -, -, -, struck⟩
    · exact congrArg (·.pool.queue? k) same
    · exact congrArg (·.pool.queue? k) struck
  · exact congrArg (·.queue? k) (calm_performRoomTask w r tidies).pool

theorem aside_performRoomTask (w : World) (r : RoomRef) (task : RoomTask) :
    Aside w (w.performRoomTask r task) := by
  by_cases tidies : task = .tidy
  · subst tidies
    rcases removeIfVacant_cases w r with same | ⟨room, -, -, -, struck⟩
    · rw [performRoomTask, same]
      exact (Calm.refl w).aside
    · rw [performRoomTask, struck]
      exact ⟨fun _ => rfl, fun _ => rfl, fun _ => rfl, fun _ => rfl⟩
  · have changed : Aside w (w.modifyRoom r (w.roomAfter task)) :=
      ⟨fun _ => rfl, fun _ => rfl, fun _ => rfl, fun _ => rfl⟩
    exact changed.trans (calm_performRoomTask w r tidies).aside

theorem moves_run {r : RoomRef} {task : RoomTask} (found : w.pool.queue? q = some queue)
    (alive : queue.drains[i]? = some (.executing (.room r task))) :
    Moves w [.run r task]
      ((w.performRoomTask r task).updatePool (·.modify q (·.finish i (.ok ())))) := by
  by_cases tidies : task = .tidy
  · subst tidies
    have finishes {u : World} (known : u.pool.queue? q = some queue) :
        Moves u [.run r .tidy] (u.updatePool (·.modify q (·.finish i (.ok ())))) :=
      (Move.run u q i r .tidy queue known alive).moves.then_quiet
        ((calm_modifyRoom u r).updatePool _).quiet
    rcases removeIfVacant_cases w r with same | ⟨room, hroom, registered, vacant, struck⟩
    · rw [performRoomTask, same]
      exact finishes found
    · have executed : Job.room r .tidy ∈ queue.outstanding := by
        have listed : Job.room r .tidy ∈ queue.executing :=
          List.mem_filterMap.2 ⟨_, List.mem_of_getElem? alive, rfl⟩
        exact List.mem_append_left _ listed
      have owes : w.agenda? q = some (queue.outstanding.filterMap Job.roomTask?) := by
        rw [agenda?, found]
        rfl
      have strikes := Move.strike w q r room _ hroom registered vacant owes
        (List.mem_filterMap.2 ⟨_, executed, rfl⟩)
      rw [performRoomTask, struck]
      exact strikes.moves.trans (finishes found)
  · exact (Move.run w q i r task queue found alive).moves.then_quiet
      ((calm_performRoomTask w r tidies).updatePool _).quiet

theorem change_room (serial : w.pool.Serial) (found : w.pool.queue? q = some queue) {r : RoomRef}
    {task : RoomTask} (alive : queue.drains[i]? = some (.executing (.room r task)))
    (after : Jobs.Realm.advance? perform w q i = some v) :
    Change w (.work q i) v [.run r task] := by
  have phase := phase?_eq_some.2 ⟨queue, found, alive⟩
  have calm := calm_of_finished phase rfl after
  refine ⟨(moves_run found alive).then_quiet calm.quiet, ?_, fun _ => ?_⟩
  · rw [performs?, phase]
    rfl
  have known := (queue?_performRoomTask w r task q).trans found
  have served : (w.performRoomTask r task).pool.Serial := by
    intro k other hother
    rw [queue?_performRoomTask] at hother
    exact serial k other hother
  have performed := (aside_performRoomTask w r task).still
  have finished := still_finish served known alive rfl (.ok ())
  exact .still noMoves_nil ((performed.trans finished).trans calm.aside.still)

/-! ## Jobs that hold a queue -/

theorem change_hold (serial : w.pool.Serial) (found : w.pool.queue? q = some queue) {gate : String}
    (alive : queue.drains[i]? = some (.executing (.hold gate)))
    (after : Jobs.Realm.advance? perform w q i = some v) : Change w (.work q i) v [] := by
  have phase := phase?_eq_some.2 ⟨queue, found, alive⟩
  by_cases isOpen : gate ∈ w.state.gates
  · have passes : perform q (.hold gate) w =
        (w.updateState (·.passGate gate), .finished (.ok ())) := by
      rw [perform]
      exact if_pos isOpen
    have calm := calm_of_finished phase passes after
    have passed : Calm w (w.updateState (·.passGate gate)) :=
      ⟨rfl, fun _ => rfl, fun _ => rfl, fun _ => rfl, fun _ => rfl⟩
    have whole := (passed.updatePool (·.modify q (·.finish i (.ok ())))).trans calm
    have moves := (quiet_finish serial found alive rfl (.ok ())).moves
    have finished := still_finish serial found alive rfl (.ok ())
    refine ⟨moves.then_quiet whole.quiet, ?_, fun _ => ?_⟩
    · rw [performs?, phase]
      rfl
    · exact .still noMoves_nil (finished.trans whole.aside.still)
  · have blocked : perform q (.hold gate) w = (w, .blocked) := by
      rw [perform]
      exact if_neg isOpen
    rw [Jobs.Realm.advance?, phase] at after
    simp only [blocked] at after
    contradiction

/-! ## Jobs of sessions -/

theorem Act.congr {c : ClientRef} {s : Standing} {task : SessionTask} {deeds : List Deed}
    {seat : Option RoomRef} {next : Option SessionTask} (act : Act w c s u task deeds seat next)
    (same : ∀ h name, v.findRoom? h name = u.findRoom? h name) :
    Act w c s v task deeds seat next := by
  cases act with
  | rest task deeds next still nowhere after => exact .rest task deeds next still nowhere after
  | leave r n seated => exact .leave r n seated
  | lose r n seated missing => exact .lose r n seated missing
  | enter r name asked registered => exact .enter r name asked ((same _ _).trans registered)
  | arrive r name asked next after => exact .arrive r name asked next after

/-- A job that is executed is still there after a stage, in the hands of the same drain. -/
theorem Reseats.alive {c : ClientRef} {seat : Option RoomRef} (h : Reseats w c seat u)
    (serial : w.pool.Serial) (later : u.pool.Serial) (found : w.pool.queue? q = some queue)
    (alive : queue.drains[i]? = some (.executing job)) :
    ∃ after, u.pool.queue? q = some after ∧ after.drains[i]? = some (.executing job) := by
  have served := serial q queue found
  have busy := h.executing q
  rw [executing_of_queue found, served.executing_eq alive] at busy
  cases known : u.pool.queue? q with
  | none =>
      rw [World.executing, known] at busy
      contradiction
  | some after =>
      rw [executing_of_queue known] at busy
      refine ⟨after, rfl, ?_⟩
      rw [(served.drains_eq alive).1]
      exact (later q after known).alive_of_executing busy

/-- How the queue of a session goes on when its job has acted: it keeps the job for its next stage or
lets it go, and no room and no guest notices. -/
structure Resumes (q : Jobs.QueueRef) (c : ClientRef) (next : Option SessionTask) (u v : World) :
    Prop where
  quiet : Quiet u v
  state : v.state = u.state
  named : ∀ name, v.pool.find? name = u.pool.find? name
  performing : ∀ k, v.performing k = if q = k then next.toList.map (c, ·) else u.performing k
  awaiting : ∀ k, v.awaiting k = u.awaiting k

theorem resumes_of_work (furnished : Furnished w) (found : w.pool.queue? q = some queue)
    {c : ClientRef} {client : Client} {task : SessionTask} {next : Option SessionTask}
    (alive : queue.drains[i]? = some (.executing (.session c task)))
    (known : w.client? c = some client)
    (follows : Follows c next (w.performSessionTask c client task).2)
    (after : Jobs.Realm.advance? perform w q i = some v) :
    Resumes q c next (w.performSessionTask c client task).1 v := by
  have phase := phase?_eq_some.2 ⟨queue, found, alive⟩
  obtain ⟨deeds, seat, next', staged⟩ := staged_performSessionTask furnished known task
  have performs : perform q (.session c task) w = performSessionTask w c client task := by
    simp only [perform, known]
  have later := (furnished.moves staged.moves).serial
  obtain ⟨queue', found', alive'⟩ := staged.reseats.alive furnished.serial later found alive
  generalize performSessionTask w c client task = result at *
  obtain ⟨u, p⟩ := result
  cases next with
  | none =>
      obtain ⟨outcome, rfl⟩ := follows
      obtain ⟨state, pool⟩ := eq_of_finished phase performs after
      have calm := calm_of_finished phase performs after
      have sessions := sessions_finish later found' alive' outcome
      exact {
        quiet := (quiet_finish later found' alive' rfl outcome).trans calm.quiet
        state
        named := fun name => by rw [pool]; rfl
        performing := fun k => (calm.aside.still.performing k).trans (sessions k).1
        awaiting := fun k => (calm.aside.awaiting k).trans (sessions k).2 }
  | some task' =>
      obtain rfl := follows
      obtain rfl := eq_of_continues phase performs after
      have sessions := sessions_setPhase later found' alive' (.session c task')
      exact {
        quiet := quiet_setPhase later found' alive' rfl rfl
        state := rfl
        named := fun _ => rfl
        performing := fun k => (sessions k).1
        awaiting := fun k => (sessions k).2 }

theorem change_session (furnished : Furnished w) (found : w.pool.queue? q = some queue)
    {c : ClientRef} {task : SessionTask}
    (alive : queue.drains[i]? = some (.executing (.session c task)))
    (after : Jobs.Realm.advance? perform w q i = some v) : ∃ deeds, Change w (.work q i) v deeds := by
  have phase := phase?_eq_some.2 ⟨queue, found, alive⟩
  have busy : w.performing q = [(c, task)] := performing_of_alive furnished.serial found alive
  have idle : w.performs? (.work q i) = none := by
    rw [performs?, phase]
    rfl
  cases client : w.client? c with
  | none =>
      have skips : perform q (.session c task) w = (w, .finished (.ok ())) := by
        simp only [perform, client]
        rfl
      have calm := calm_of_finished phase skips after
      have finished := quiet_finish furnished.serial found alive rfl (.ok ())
      refine ⟨[], finished.moves.then_quiet calm.quiet, ?_, fun _ => .lost q c task busy ?_⟩
      · rw [idle]
        rfl
      · rw [standing?, client]
        rfl
  | some known =>
      obtain ⟨deeds, seat, next, staged⟩ := staged_performSessionTask furnished client task
      have resumes := resumes_of_work furnished found alive client staged.follows after
      have reseats := staged.reseats
      refine ⟨deeds, staged.moves.then_quiet resumes.quiet, ?_, fun _ => ?_⟩
      · rw [idle]
        exact staged.none_run
      · refine .acted q c known.standing task seat next staged.none_run
          (standing?_of_client client) busy
          (staged.act.congr fun h name => resumes.quiet.findRoom? h name) ?_ ?_ ?_ ?_
        · intro d
          rw [standing?, client?, resumes.state]
          exact reseats.standing? d
        · intro d
          rw [seat?, client?, resumes.state]
          exact reseats.seat? d
        · intro k
          rw [resumes.performing, performing, performing, reseats.executing]
        · exact fun k => (resumes.awaiting k).trans (reseats.awaiting k)

/-- The next step of a drain. -/
theorem change_work (furnished : Furnished w)
    (after : Jobs.Realm.advance? perform w q i = some v) : ∃ deeds, Change w (.work q i) v deeds := by
  rcases advance?_cases after with ⟨phase, rfl⟩ | ⟨phase, rfl⟩ | ⟨job, phase⟩
  all_goals obtain ⟨queue, found, alive⟩ := phase?_eq_some.1 phase
  · exact ⟨[], change_fetch furnished.serial found alive⟩
  · exact ⟨[], change_recheck furnished.serial found alive⟩
  · cases job with
    | room r task => exact ⟨_, change_room furnished.serial found alive after⟩
    | session c task => exact change_session furnished found alive after
    | hold gate => exact ⟨[], change_hold furnished.serial found alive after⟩

end Drain

/-! ## The other events -/

/-- A task is pushed to the queue of a client. -/
theorem change_call (furnished : Furnished w) {e : Event} {c : ClientRef} {client : Client}
    (found : w.client? c = some client) {task : SessionTask} (call : task.isCall = true)
    (calm : Calm (w.pushToSession c task) v) (idle : w.performs? e = none) : Change w e v [] := by
  have standing := standing?_of_client found
  have quiet := quiet_pushToSession w c task
  obtain ⟨queue, known, -⟩ :=
    Option.map_eq_some_iff.1 (furnished.queueOfClient c _ standing)
  refine ⟨(quiet.moves).then_quiet calm.quiet, ?_, fun _ => ?_⟩
  · rw [idle]
    rfl
  have pushed : w.pushToSession c task = w.push client.queue (.session c task) := by
    rw [pushToSession, found]
  refine .called c client.standing task standing call ?_ ?_ ?_ ?_
  · exact fun d => (calm.standing? d).trans (quiet.standing? d)
  · intro d
    rw [calm.seat?, pushed]
    rfl
  · intro q
    rw [calm.aside.still.performing, performing, performing, pushed, executing_push]
  · intro q
    rw [calm.aside.awaiting, pushed]
    exact awaiting_push w known q _

theorem register?_isSome_of_lt {h : HallRef} (below : h < w.state.halls.length) :
    (w.register? h).isSome := by
  rw [register?, hall?, List.getElem?_eq_getElem below]
  rfl

theorem standing?_isSome_of_lt {c : ClientRef} (below : c < w.state.clients.length) :
    (w.standing? c).isSome := by
  rw [standing?, client?, List.getElem?_eq_getElem below]
  rfl

theorem change_openHall (w : World) (defaultRoom : String) :
    Change w (.openHall defaultRoom)
      ((w.openHall defaultRoom).1.getOrCreateRoom (w.openHall defaultRoom).2 defaultRoom).1 [] where
  moves := by
    have opened := register?_openHall w defaultRoom w.state.halls.length
    rw [if_pos rfl] at opened
    exact (Move.openHall w defaultRoom).moves.trans
      (moves_getOrCreateRoom (Option.isSome_of_eq_some opened) defaultRoom)
  ran := rfl
  turn _ := by
    have opened : Aside w (w.openHall defaultRoom).1 :=
      ⟨fun _ => rfl, fun _ => rfl, fun _ => rfl, fun _ => rfl⟩
    exact .still noMoves_nil (opened.trans (aside_getOrCreateRoom _ _ _)).still

theorem change_leaveRoom {r : RoomRef} {room : Room} (found : w.room? r = some room)
    (playerId : Nat) : ∃ deeds, Change w (.leaveRoom r playerId) (w.leaveRoom r playerId) deeds := by
  obtain ⟨deeds, tidies, -, none_run⟩ := moves_pushTidy (w.pushLeave r playerId) r
  exact ⟨_, (moves_pushLeave found playerId).trans tidies, none_run, Bool.noConfusion⟩

theorem change_accept {h : HallRef} (after : w.acceptStep? h = some v) :
    Change w (.accept h) v [] := by
  simp only [acceptStep?, Option.bind_eq_bind, Option.bind_eq_some_iff,
    Option.ite_none_right_eq_some, Option.some.injEq] at after
  obtain ⟨hall, found, -, rfl⟩ := after
  have calm : Calm (w.newClient h).1 (w.takeInHand h).1 := calm_modifyHall _ h fun _ => rfl
  exact {
    moves := (Move.newClient w h hall found).moves.then_quiet calm.quiet
    ran := rfl
    turn := fun _ => .came h hall found calm.aside.still }

theorem change_start {h : HallRef} {works : Bool} (after : w.startStep? h works = some v) :
    Change w (.start h works) v [] := by
  simp only [startStep?, Option.bind_eq_bind, Option.bind_eq_some_iff, Option.some.injEq] at after
  obtain ⟨hall, -, c, -, rfl⟩ := after
  have taken : Calm w (w.modifyHall h fun hall => { hall with inHand := none }) :=
    calm_modifyHall w h fun _ => rfl
  refine Calm.change ?_ rfl
  split
  · exact taken.trans (calm_modifyClient _ c (fun _ => rfl) fun _ => rfl)
  · exact taken

theorem change_arrive (furnished : Furnished w) {c : ClientRef}
    (after : w.arriveStep? c = some v) : Change w (.arrive c) v [] := by
  simp only [arriveStep?, Option.bind_eq_bind, Option.bind_eq_some_iff,
    Option.ite_none_left_eq_some] at after
  obtain ⟨client, found, -, after⟩ := after
  split at after
  · obtain rfl := Option.some.inj after
    apply Calm.change _ rfl
    exact calm_modifyClient w c (fun _ => rfl) fun _ => rfl
  · obtain rfl := Option.some.inj after
    rw [registerQueue, found]
    have calm : Calm (w.withPool (w.pool.register client.queue))
        ((w.withPool (w.pool.register client.queue)).modifyClient c fun client =>
          { client with arrival := .registered }) :=
      calm_modifyClient _ c (fun _ => rfl) fun _ => rfl
    have aside : Aside w (w.withPool (w.pool.register client.queue)) :=
      aside_of_queues (fun _ => rfl) (fun _ => rfl)
        fun q => .inl (Jobs.Pool.queue?_register client.queue q)
    exact {
      moves := (Move.name w c client found).moves.then_quiet calm.quiet
      ran := rfl
      turn := fun _ => .still noMoves_nil (aside.trans calm.aside).still }
  · obtain rfl := Option.some.inj after
    rw [enlist, found]
    have listed : Calm w (w.modifyHall client.hall fun hall =>
        { hall with sessions := hall.sessions.insert client.sessionId c }) :=
      calm_modifyHall w _ fun _ => rfl
    apply Calm.change _ rfl
    exact listed.trans (calm_modifyClient _ c (fun _ => rfl) fun _ => rfl)
  · obtain rfl := Option.some.inj after
    exact change_call furnished found rfl (calm_modifyClient _ c (fun _ => rfl) fun _ => rfl) rfl
  · contradiction

theorem change_packet (furnished : Furnished w) {c : ClientRef} {client : Client}
    (found : w.client? c = some client) (p : Wire.Packet) :
    Change w (.packet c p) (w.dispatch c p) [] := by
  cases p with
  | binary id payload => exact change_call furnished found rfl (Calm.refl _) rfl
  | json text => exact change_call furnished found rfl (Calm.refl _) rfl

theorem change_depart (furnished : Furnished w) {c : ClientRef}
    (after : w.departStep? c = some v) : Change w (.depart c) v [] := by
  simp only [departStep?, Option.bind_eq_bind, Option.bind_eq_some_iff] at after
  obtain ⟨client, found, after⟩ := after
  split at after
  · rw [Option.ite_none_right_eq_some, Option.some.injEq] at after
    obtain ⟨-, rfl⟩ := after
    exact (calm_close w c).change rfl
  · obtain rfl := Option.some.inj after
    rw [delist, found]
    have removed : Calm w (w.removeSession client.hall client.sessionId) :=
      calm_modifyHall w _ fun _ => rfl
    apply Calm.change _ rfl
    exact removed.trans (calm_modifyClient _ c (fun _ => rfl) fun _ => rfl)
  · obtain rfl := Option.some.inj after
    exact change_call furnished found rfl (calm_modifyClient _ c (fun _ => rfl) fun _ => rfl) rfl
  · contradiction

theorem change_dismiss {h : HallRef} (after : w.dismissStep? h = some v) :
    Change w (.dismiss h) v [] := by
  simp only [dismissStep?, Option.bind_eq_bind, Option.bind_eq_some_iff] at after
  obtain ⟨hall, -, clients, -, after⟩ := after
  cases clients with
  | nil => contradiction
  | cons c later =>
      obtain rfl := Option.some.inj after
      have taken : Calm w (w.modifyHall h fun hall => { hall with dismissing := some later }) :=
        calm_modifyHall w h fun _ => rfl
      refine Calm.change ?_ rfl
      split
      · exact taken.trans (calm_close _ c)
      · exact taken

theorem room?_of_lt {r : RoomRef} (below : r < w.state.rooms.length) :
    ∃ room, w.room? r = some room :=
  ⟨_, List.getElem?_eq_getElem below⟩

/-- Every event comes down to moves, and to one turn for the sessions. -/
theorem change_of_after? (furnished : Furnished w) {e : Event} (after : w.after? e = some v) :
    ∃ deeds, Change w e v deeds := by
  cases e with
  | openHall defaultRoom =>
      obtain rfl := Option.some.inj after
      exact ⟨[], change_openHall w defaultRoom⟩
  | room h name =>
      simp only [after?, Option.ite_none_right_eq_some, Option.some.injEq] at after
      obtain ⟨below, rfl⟩ := after
      exact ⟨[], moves_getOrCreateRoom (register?_isSome_of_lt below) name, rfl,
        fun _ => .still noMoves_nil (aside_getOrCreateRoom w h name).still⟩
  | enterRoom h name c =>
      simp only [after?, Option.ite_none_right_eq_some, Bool.and_eq_true, decide_eq_true_eq,
        Option.some.injEq] at after
      obtain ⟨⟨hall, client⟩, rfl⟩ := after
      exact ⟨_, moves_enterRoom (register?_isSome_of_lt hall) (standing?_isSome_of_lt client) name,
        rfl, Bool.noConfusion⟩
  | leaveRoom r playerId =>
      simp only [after?, Option.ite_none_right_eq_some, Option.some.injEq] at after
      obtain ⟨below, rfl⟩ := after
      obtain ⟨room, found⟩ := room?_of_lt below
      exact change_leaveRoom found playerId
  | tidyRoom r =>
      simp only [after?, Option.ite_none_right_eq_some, Option.some.injEq] at after
      obtain ⟨-, rfl⟩ := after
      obtain ⟨deeds, moves, still, none_run⟩ := moves_pushTidy w r
      exact ⟨deeds, moves, none_run, fun _ => .still still (aside_pushTidy w r).still⟩
  | accept h => exact ⟨[], change_accept after⟩
  | start h works => exact ⟨[], change_start after⟩
  | arrive c => exact ⟨[], change_arrive furnished after⟩
  | packet c p =>
      simp only [after?, Option.ite_none_right_eq_some, Option.any_eq_true, Option.some.injEq]
        at after
      obtain ⟨⟨client, found, -⟩, rfl⟩ := after
      exact ⟨[], change_packet furnished found p⟩
  | depart c => exact ⟨[], change_depart furnished after⟩
  | release c =>
      simp only [after?, Option.ite_none_right_eq_some, Option.some.injEq] at after
      obtain ⟨-, rfl⟩ := after
      refine ⟨[], Calm.change ?_ rfl⟩
      exact calm_modifyClient w c (fun _ => by split <;> rfl) fun _ => by split <;> rfl
  | work q i => exact change_work furnished after
  | stop h =>
      simp only [after?, Option.ite_none_right_eq_some, Option.some.injEq] at after
      obtain ⟨-, rfl⟩ := after
      exact ⟨[], Calm.change (calm_modifyHall w h fun _ => rfl) rfl⟩
  | lookAround h =>
      simp only [after?, Option.ite_none_right_eq_some, Option.some.injEq] at after
      obtain ⟨-, rfl⟩ := after
      exact ⟨[], Calm.change (calm_modifyHall w h fun _ => rfl) rfl⟩
  | dismiss h => exact ⟨[], change_dismiss after⟩

end World

end ChatHall.Server
