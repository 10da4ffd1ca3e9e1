/-
# The stages of a session's jobs

What one stage of a job of a session does for the rooms, to the seat of its
client, and to the job itself. A client leaves its seat and asks to leave the
room in one stage; it asks to enter a room in another one, in which it has no
seat, and takes the seat in the stage after that.
-/

import ChatHall.Proofs.Server.Furnished

namespace ChatHall.Server

def Job.sessionTask? : Job → Option (ClientRef × SessionTask)
  | session c task => some (c, task)
  | _ => none

/-- Whether a task changes who is in a room. -/
def RoomTask.isMove : RoomTask → Bool
  | enter _ | leave _ => true
  | _ => false

/-- Whether a stage comes after the client has left its seat and before it asks for
another. -/
def SessionTask.isBetween : SessionTask → Bool
  | tidying .. | going (.enter ..) => true
  | _ => false

/-- The room in which the client has asked to be, and where it has no seat yet. -/
def SessionTask.destination? : SessionTask → Option RoomRef
  | arriving r .. => some r
  | _ => none

/-- Nothing that is pushed changes who is in a room. -/
def NoMoves (deeds : List Deed) : Prop := ∀ e ∈ pushedIn deeds, e.2.isMove = false

namespace World

theorem noMoves_nil : NoMoves [] := fun _ => List.not_mem_nil.elim

/-- Whatever is asked of the stage that follows the last one. -/
theorem forall_mem_none {P : SessionTask → Prop} : ∀ t ∈ (none : Option SessionTask), P t :=
  fun _ none_next => absurd none_next (Option.not_mem_none _)

variable {w v u : World}

/-! ## The jobs of sessions -/

def executing (w : World) (q : Jobs.QueueRef) : List Job :=
  ((w.pool.queue? q).map Jobs.Queue.executing).getD []

def performing (w : World) (q : Jobs.QueueRef) : List (ClientRef × SessionTask) :=
  (w.executing q).filterMap Job.sessionTask?

def awaiting (w : World) (q : Jobs.QueueRef) : List (ClientRef × SessionTask) :=
  (((w.pool.queue? q).map Jobs.Queue.waiting).getD []).filterMap Job.sessionTask?

/-- The sessions and their jobs are as before, but for the seat of one client. -/
structure Reseats (w : World) (c : ClientRef) (seat : Option RoomRef) (v : World) : Prop where
  standing? : ∀ d, v.standing? d = w.standing? d
  seat? : ∀ d, v.seat? d = if d = c then seat else w.seat? d
  executing : ∀ q, v.executing q = w.executing q
  awaiting : ∀ q, v.awaiting q = w.awaiting q

/-- The sessions and their jobs are as before. -/
structure Aside (w v : World) : Prop where
  standing? : ∀ d, v.standing? d = w.standing? d
  seat? : ∀ d, v.seat? d = w.seat? d
  executing : ∀ q, v.executing q = w.executing q
  awaiting : ∀ q, v.awaiting q = w.awaiting q

theorem Aside.reseats (h : Aside w v) (c : ClientRef) : Reseats w c (w.seat? c) v where
  standing? := h.standing?
  seat? d := by
    rw [h.seat?]
    split
    · next same => rw [same]
    · rfl
  executing := h.executing
  awaiting := h.awaiting

theorem Aside.trans (first : Aside w v) (second : Aside v u) : Aside w u where
  standing? d := (second.standing? d).trans (first.standing? d)
  seat? d := (second.seat? d).trans (first.seat? d)
  executing q := (second.executing q).trans (first.executing q)
  awaiting q := (second.awaiting q).trans (first.awaiting q)

theorem Reseats.then_aside {c : ClientRef} {seat : Option RoomRef} (first : Reseats w c seat v)
    (second : Aside v u) : Reseats w c seat u where
  standing? d := (second.standing? d).trans (first.standing? d)
  seat? d := (second.seat? d).trans (first.seat? d)
  executing q := (second.executing q).trans (first.executing q)
  awaiting q := (second.awaiting q).trans (first.awaiting q)

theorem Calm.aside (h : Calm w v) : Aside w v where
  standing? := h.standing?
  seat? := h.seat?
  executing q := by rw [World.executing, h.pool, World.executing]
  awaiting q := by rw [World.awaiting, h.pool, World.awaiting]

/-- A client changes its seat. -/
theorem reseats_modifyClient {c : ClientRef} {client : Client} (found : w.client? c = some client)
    (seat : Option RoomRef) :
    Reseats w c seat (w.modifyClient c fun client => { client with room := seat }) where
  standing? d := standing?_modifyClient w c d fun _ => rfl
  seat? d := by
    rw [seat?_modifyClient]
    by_cases same : c = d
    · rw [if_pos same, if_pos same.symm, ← same, found]
      rfl
    · rw [if_neg same, if_neg (Ne.symm same)]
  executing _ := rfl
  awaiting _ := rfl

/-- The jobs in a queue are as before if the queue is, or if it is new. -/
theorem jobs_of_queue? {q : Jobs.QueueRef}
    (queue : v.pool.queue? q = w.pool.queue? q ∨
      w.pool.queue? q = none ∧ ∃ name, v.pool.queue? q = some { name }) :
    v.executing q = w.executing q ∧ v.awaiting q = w.awaiting q := by
  rw [executing, executing, awaiting, awaiting]
  rcases queue with same | ⟨missing, name, made⟩
  · rw [same]
    exact ⟨rfl, rfl⟩
  · rw [missing, made]
    exact ⟨rfl, rfl⟩

theorem aside_of_queues (standing : ∀ d, v.standing? d = w.standing? d)
    (seat : ∀ d, v.seat? d = w.seat? d)
    (queues : ∀ q, v.pool.queue? q = w.pool.queue? q ∨
      w.pool.queue? q = none ∧ ∃ name, v.pool.queue? q = some { name }) : Aside w v where
  standing? := standing
  seat? := seat
  executing q := (jobs_of_queue? (queues q)).1
  awaiting q := (jobs_of_queue? (queues q)).2

/-- A client that comes brings no jobs. -/
theorem jobs_newClient {h : HallRef} {hall : Hall} (found : w.hall? h = some hall)
    (q : Jobs.QueueRef) :
    (w.newClient h).1.executing q = w.executing q ∧
      (w.newClient h).1.awaiting q = w.awaiting q := by
  apply jobs_of_queue?
  rw [pool_newClient found, Jobs.Pool.queue?_create]
  split
  · next new =>
      right
      rw [new, Jobs.Pool.queue?_length]
      exact ⟨rfl, _, rfl⟩
  · exact .inl rfl

theorem executing_push (w : World) (q k : Jobs.QueueRef) (job : Job) :
    executing (w.push q job) k = w.executing k := by
  rw [executing, executing, Jobs.Realm.push, Jobs.Realm.updatePool, Jobs.Pool.push,
    Jobs.Pool.queue?_modify]
  split
  · rw [Option.map_map]
    exact congrArg (Option.getD · []) (congrFun (congrArg Option.map
      (funext fun _ => Jobs.Queue.executing_push job)) _)
  · rfl

theorem awaiting_push (w : World) {q : Jobs.QueueRef} {queue : Jobs.Queue Job}
    (found : w.pool.queue? q = some queue) (k : Jobs.QueueRef) (job : Job) :
    awaiting (w.push q job) k =
      if q = k then w.awaiting k ++ job.sessionTask?.toList else w.awaiting k := by
  rw [awaiting, awaiting, Jobs.Realm.push, Jobs.Realm.updatePool, Jobs.Pool.push,
    Jobs.Pool.queue?_modify]
  split
  · next same =>
      rw [← same, found]
      simp only [Option.map_some, Option.getD_some, Jobs.Queue.waiting_push, List.filterMap_append]
      cases job <;> rfl
  · rfl

theorem aside_pushToRoom (w : World) (r : RoomRef) (task : RoomTask) :
    Aside w (w.pushToRoom r task) where
  standing? := standing?_pushToRoom w r task
  seat? d := by
    rw [pushToRoom]
    split <;> rfl
  executing q := by
    rw [pushToRoom]
    split
    · exact executing_push w _ q _
    · rfl
  awaiting q := by
    rw [pushToRoom]
    split
    · next room _ =>
        cases found : w.pool.queue? room.queue with
        | none =>
            rw [World.awaiting, World.awaiting, Jobs.Realm.push, Jobs.Realm.updatePool,
              Jobs.Pool.push, Jobs.Pool.queue?_modify]
            split
            · next same => rw [← same, found, Option.map_none]
            · rfl
        | some queue =>
            have pushed := awaiting_push w found q (.room r task)
            rw [pushed]
            split
            · exact List.append_nil _
            · rfl
    · rfl

theorem aside_pushEnter (w : World) (r : RoomRef) (c : ClientRef) : Aside w (w.pushEnter r c) := by
  have changed : Aside w (w.modifyRoom r fun room =>
      { room with pendingEnters := room.pendingEnters + 1 }) :=
    ⟨fun _ => rfl, fun _ => rfl, fun _ => rfl, fun _ => rfl⟩
  exact changed.trans (aside_pushToRoom _ r (.enter c))

theorem aside_getOrCreateRoom (w : World) (h : HallRef) (name : String) :
    Aside w (w.getOrCreateRoom h name).1 := by
  refine aside_of_queues (standing?_getOrCreateRoom w h name) (seat?_getOrCreateRoom w h name) ?_
  intro q
  cases found : w.findRoom? h name with
  | some r =>
      rw [getOrCreateRoom_of_some found]
      exact .inl rfl
  | none =>
      rw [pool_getOrCreateRoom found]
      rcases Jobs.Pool.queue?_getOrCreate (p := w.pool) (roomQueueName name) q with same | new
      · exact .inl same
      · exact .inr ⟨new.1, _, new.2⟩

theorem aside_pushTidy (w : World) (r : RoomRef) : Aside w (w.pushTidy r) := by
  rw [pushTidy]
  split
  · split
    · exact (Calm.refl w).aside
    · exact aside_pushToRoom w r .tidy
  · exact (Calm.refl w).aside

/-! ## What is asked of the register -/

/-- A task that does not change who is in a room is pushed. -/
theorem moves_pushToRoom {r : RoomRef} {room : Room} (found : w.room? r = some room)
    {task : RoomTask} (still : task.isMove = false) (other : task ≠ .tidy) :
    Moves w [.push r task] (w.pushToRoom r task) := by
  refine (Move.push w r room task found ?_ fun tidies => absurd tidies other).moves
  rintro c rfl
  contradiction

theorem moves_pushLeave {r : RoomRef} {room : Room} (found : w.room? r = some room)
    (playerId : Nat) : Moves w [.push r (.leave playerId)] (w.pushLeave r playerId) :=
  (Move.push w r room _ found (fun _ => RoomTask.noConfusion) RoomTask.noConfusion).moves

/-- Asking for a room to be given up pushes one task at most. -/
theorem moves_pushTidy_cases (w : World) (r : RoomRef) :
    Moves w [] (w.pushTidy r) ∨ Moves w [.push r .tidy] (w.pushTidy r) := by
  rw [pushTidy]
  cases found : w.room? r with
  | none => exact .inl (.refl w)
  | some room =>
      cases hhall : w.hall? room.hall with
      | none =>
          rw [Option.bind_some, hhall]
          exact .inl (.refl w)
      | some hall =>
          rw [Option.bind_some, hhall, Option.map_some]
          dsimp only
          split
          · exact .inl (.refl w)
          · next other =>
              refine .inr (Move.push w r room .tidy found (fun _ => RoomTask.noConfusion)
                fun _ register hregister => ?_).moves
              rw [register?, hhall] at hregister
              obtain rfl := Option.some.inj hregister
              exact other

theorem moves_pushTidy (w : World) (r : RoomRef) :
    ∃ deeds, Moves w deeds (w.pushTidy r) ∧ NoMoves deeds ∧ ranIn deeds = [] := by
  rcases moves_pushTidy_cases w r with moves | moves
  · exact ⟨[], moves, noMoves_nil, rfl⟩
  · refine ⟨_, moves, fun e listed => ?_, rfl⟩
    obtain rfl := List.mem_singleton.1 listed
    rfl

theorem moves_getOrCreateRoom {h : HallRef} (known : (w.register? h).isSome) (name : String) :
    Moves w [] (w.getOrCreateRoom h name).1 := by
  cases found : w.findRoom? h name with
  | none => exact (Move.makeRoom w h name known found).moves
  | some r =>
      rw [getOrCreateRoom_of_some found]
      exact .refl w

theorem findRoom?_enterRoom {h : HallRef} (known : (w.register? h).isSome) (name : String)
    (c : ClientRef) :
    (w.enterRoom h name c).1.findRoom? h name = some (w.enterRoom h name c).2 :=
  (findRoom?_pushEnter _ _ c h name).trans (findRoom?_getOrCreateRoom_self known)

theorem moves_enterRoom {h : HallRef} {c : ClientRef} (known : (w.register? h).isSome)
    (client : (w.standing? c).isSome) (name : String) :
    Moves w [.push (w.enterRoom h name c).2 (.enter c)] (w.enterRoom h name c).1 := by
  apply (moves_getOrCreateRoom known name).step
  apply Move.enter _ h name _ c (findRoom?_getOrCreateRoom_self known)
  rw [standing?_getOrCreateRoom]
  exact client

theorem aside_enterRoom (w : World) (h : HallRef) (name : String) (c : ClientRef) :
    Aside w (w.enterRoom h name c).1 :=
  (aside_getOrCreateRoom w h name).trans (aside_pushEnter _ _ c)

theorem room?_of_currentRoom? {c : ClientRef} {r : RoomRef} {room : Room}
    (current : w.currentRoom? c = some (r, room)) : w.room? r = some room := by
  simp only [currentRoom?, Option.bind_eq_bind, Option.bind_eq_some_iff, Option.some.injEq,
    Prod.mk.injEq] at current
  obtain ⟨client, -, s, -, found, hfound, rfl, rfl⟩ := current
  exact hfound

/-! ## One stage -/

/-- How a job goes on after a stage. -/
def Follows (c : ClientRef) (next : Option SessionTask) (p : Jobs.Progress Job) : Prop :=
  match next with
  | some task => p = .continues (.session c task)
  | none => ∃ outcome, p = .finished outcome

/-- What a stage of a job of a client does for the rooms, where the client is then, and the
stage that follows. -/
inductive Act (w : World) (c : ClientRef) (s : Standing) (v : World) :
    SessionTask → List Deed → Option RoomRef → Option SessionTask → Prop
  /-- Nobody goes anywhere. -/
  | rest (task : SessionTask) (deeds : List Deed) (next : Option SessionTask)
      (still : NoMoves deeds) (nowhere : task.destination? = none)
      (after : ∀ t ∈ next, t.destination? = none ∧
        (t.isBetween = true → w.seat? c = none ∨ task.isBetween = true)) :
      Act w c s v task deeds (w.seat? c) next
  | leave (r : RoomRef) (n : Next) (seated : w.seat? c = some r) :
      Act w c s v (.leaving n) [.push r (.leave s.sessionId)] none (some (.tidying r n))
  /-- The seat is in a room that is not there. -/
  | lose (r : RoomRef) (n : Next) (seated : w.seat? c = some r) (missing : w.room? r = none) :
      Act w c s v (.leaving n) [] none (some (.tidying r n))
  | enter (r : RoomRef) (name : String) (asked : Bool)
      (registered : v.findRoom? s.hall name = some r) :
      Act w c s v (.going (.enter name asked)) [.push r (.enter c)] (w.seat? c)
        (some (.arriving r name asked))
  | arrive (r : RoomRef) (name : String) (asked : Bool) (next : Option SessionTask)
      (after : ∀ t ∈ next, t.destination? = none ∧ t.isBetween = false) :
      Act w c s v (.arriving r name asked) [] (some r) next

/-- What is known of a stage that has come to a result. -/
structure Staged (w : World) (c : ClientRef) (s : Standing) (task : SessionTask)
    (result : World × Jobs.Progress Job) (deeds : List Deed) (seat : Option RoomRef)
    (next : Option SessionTask) : Prop where
  moves : Moves w deeds result.1
  none_run : ranIn deeds = []
  reseats : Reseats w c seat result.1
  act : Act w c s result.1 task deeds seat next
  follows : Follows c next result.2

section Staged

variable {c : ClientRef} {s : Standing} {task : SessionTask}

/-- A stage that nobody notices ends its job. -/
theorem staged_end (nowhere : task.destination? = none) (calm : Calm w v)
    (outcome : Except Jobs.Failure Unit) :
    Staged w c s task (v, .finished outcome) [] (w.seat? c) none where
  moves := calm.quiet.moves
  none_run := rfl
  reseats := calm.aside.reseats c
  act := .rest task [] none noMoves_nil nowhere forall_mem_none
  follows := ⟨outcome, rfl⟩

/-- A stage that nobody notices is followed by another one. -/
theorem staged_goOn (nowhere : task.destination? = none) {next : SessionTask}
    (after : next.destination? = none)
    (between : next.isBetween = true → w.seat? c = none ∨ task.isBetween = true) :
    Staged w c s task (w.goOn c next) [] (w.seat? c) (some next) where
  moves := .refl w
  none_run := rfl
  reseats := (Calm.refl w).aside.reseats c
  act := .rest task [] (some next) noMoves_nil nowhere fun t ht => by
    obtain rfl := Option.some.inj ht
    exact ⟨after, between⟩
  follows := rfl

/-- A stage pushes something to a room that leaves everybody where they are. -/
theorem staged_push (nowhere : task.destination? = none) {r : RoomRef} {room : Room}
    (found : w.room? r = some room) {said : RoomTask} (still : said.isMove = false)
    (other : said ≠ .tidy) {next : Option SessionTask} {p : Jobs.Progress Job}
    (follows : Follows c next p)
    (after : ∀ t ∈ next, t.destination? = none ∧ t.isBetween = false) :
    Staged w c s task (w.pushToRoom r said, p) [.push r said] (w.seat? c) next where
  moves := moves_pushToRoom found still other
  none_run := rfl
  reseats := (aside_pushToRoom w r said).reseats c
  act := by
    refine .rest task _ next ?_ nowhere fun t ht => ⟨(after t ht).1, fun between => ?_⟩
    · intro e listed
      obtain rfl := List.mem_singleton.1 listed
      exact still
    · rw [(after t ht).2] at between
      contradiction
  follows := follows

theorem staged_join (nowhere : task.destination? = none) (room : String) (asked : Bool) :
    ∃ deeds seat next, Staged w c s task (w.join c room asked) deeds seat next := by
  have away : ∃ deeds seat next,
      Staged w c s task (w.goOn c (.leaving (.enter room asked))) deeds seat next :=
    ⟨_, _, _, staged_goOn nowhere rfl fun between => Bool.noConfusion between⟩
  rw [join]
  cases current : w.currentRoom? c with
  | none => exact away
  | some here =>
      obtain ⟨r, now⟩ := here
      have found := room?_of_currentRoom? current
      dsimp only
      split
      · split
        · refine ⟨_, _, some _, staged_push nowhere found rfl RoomTask.noConfusion rfl ?_⟩
          intro t ht
          obtain rfl := Option.some.inj ht
          exact ⟨rfl, rfl⟩
        · exact ⟨_, _, none,
            staged_push nowhere found rfl RoomTask.noConfusion ⟨_, rfl⟩ forall_mem_none⟩
      · exact away

/-- A message goes to the current room, or it is unfit or there is no such room. -/
theorem chat_cases (w : World) (c : ClientRef) (client : Client) (message : String) :
    (∃ r room, Chat.validateMessage message = .ok () ∧ w.currentRoom? c = some (r, room) ∧
      w.chat c client message = .ok (w.pushToRoom r (.say client.sessionId message))) ∨
    ∃ e, w.chat c client message = .error e ∧
      (Chat.validateMessage message = .error e ∨
        w.currentRoom? c = none ∧ e = .notInRoom client.sessionId) := by
  rw [chat]
  cases valid : Chat.validateMessage message with
  | error e => exact .inr ⟨e, rfl, .inl rfl⟩
  | ok _ =>
      cases current : w.currentRoom? c with
      | none => exact .inr ⟨_, rfl, .inr ⟨rfl, rfl⟩⟩
      | some here => exact .inl ⟨here.1, here.2, rfl, rfl, rfl⟩

/-- A message that goes through is pushed to the current room. -/
theorem exists_of_chat {client : Client} {message : String}
    (spoken : w.chat c client message = .ok v) :
    ∃ r room, w.room? r = some room ∧ v = w.pushToRoom r (.say client.sessionId message) := by
  rcases chat_cases w c client message with ⟨r, room, -, current, passed⟩ | ⟨e, refused, -⟩
  · exact ⟨r, room, room?_of_currentRoom? current, Except.ok.inj (spoken.symm.trans passed)⟩
  · rw [refused] at spoken
    contradiction

theorem staged_chat (nowhere : task.destination? = none) {client : Client} {message : String}
    (spoken : w.chat c client message = .ok v) :
    ∃ deeds seat next, Staged w c s task v.succeed deeds seat next := by
  obtain ⟨r, room, there, rfl⟩ := exists_of_chat spoken
  exact ⟨_, _, none, staged_push nowhere there rfl RoomTask.noConfusion ⟨_, rfl⟩ forall_mem_none⟩

theorem staged_reject (nowhere : task.destination? = none) (e : Chat.Error) :
    ∃ deeds seat next, Staged w c s task (w.reject c e) deeds seat next :=
  ⟨_, _, _, staged_end nowhere (calm_reject w c e) _⟩

theorem staged_takePacket (nowhere : task.destination? = none) (client : Client) (id : UInt16)
    (payload : Bytes) :
    ∃ deeds seat next, Staged w c s task (w.takePacket c client id payload) deeds seat next := by
  have failed (message : String) :
      ∃ deeds seat next, Staged w c s task (w.failWith message) deeds seat next :=
    ⟨_, _, _, staged_end nowhere (Calm.refl w) _⟩
  rw [takePacket]
  cases Chat.PacketKind.ofId id with
  | error e => exact failed e.message
  | ok kind =>
      cases kind with
      | utterance =>
          cases decoded : Chat.Utterance.decode Chat.PacketKind.utterance.id payload with
          | error e => exact failed e.message
          | ok utterance =>
              cases spoken : w.chat c client utterance.message with
              | error e =>
                  simp only [bind, Except.bind, spoken]
                  exact failed e.message
              | ok v =>
                  simp only [bind, Except.bind, spoken]
                  exact staged_chat nowhere spoken
      | broadcast => exact failed _
      | roomUpdate => exact failed _

theorem staged_takeCommand (nowhere : task.destination? = none) (client : Client) (text : String) :
    ∃ deeds seat next, Staged w c s task (w.takeCommand c client text) deeds seat next := by
  rw [takeCommand]
  cases Chat.Command.decode text with
  | error e => exact staged_reject nowhere e
  | ok command =>
      cases command with
      | joinRoom room => exact staged_join nowhere room true
      | leaveRoom room =>
          dsimp only
          split
          · exact staged_reject nowhere _
          · refine ⟨_, _, some _, staged_goOn nowhere ?_ fun between => ?_⟩
            · split <;> rfl
            · split at between <;> contradiction
      | sendMessage message =>
          dsimp only
          cases spoken : w.chat c client message with
          | error e => exact staged_reject nowhere e
          | ok v => exact staged_chat nowhere spoken

/-- The client leaves its seat, and asks to leave the room if that is there. -/
theorem staged_leave {client : Client} (found : w.client? c = some client) {r : RoomRef}
    (seated : client.room = some r) (n : Next) :
    ∃ deeds, Staged w c client.standing (.leaving n)
      (((w.modifyClient c fun client => { client with room := none }).pushLeave r
        client.sessionId).goOn c (.tidying r n)) deeds none (some (.tidying r n)) := by
  have seat : w.seat? c = some r := by
    rw [seat?, found]
    exact seated
  have quiet := quiet_modifyClient w c (f := fun client => { client with room := none }) fun _ => rfl
  have reseats := reseats_modifyClient found none
  generalize (w.modifyClient c fun client => { client with room := none }) = v at quiet reseats ⊢
  cases there : v.room? r with
  | none =>
      have lost := Act.lose (c := c) (s := client.standing) (v := v) r n seat
        ((quiet.room? r).symm.trans there)
      have unknown : v.pushLeave r client.sessionId = v := by
        rw [pushLeave, pushToRoom, there]
      rw [unknown]
      exact ⟨[], quiet.moves, rfl, reseats, lost, rfl⟩
  | some room =>
      refine ⟨[.push r (.leave client.sessionId)],
        quiet.moves.trans (moves_pushLeave there client.sessionId), rfl, ?_, .leave r n seat, rfl⟩
      exact reseats.then_aside (aside_pushToRoom _ r _)

theorem staged_go (furnished : Furnished w) {client : Client} (found : w.client? c = some client)
    (next : Next) :
    ∃ deeds seat later,
      Staged w c client.standing (.going next) (w.go c client next) deeds seat later := by
  rw [go.eq_def]
  cases next with
  | enter room asked =>
      have standing := standing?_of_client found
      obtain ⟨register, hregister, -⟩ := furnished.hallOfClient c _ standing
      have known := Option.isSome_of_eq_some hregister
      have registered := findRoom?_enterRoom known room c
      exact ⟨_, _, _, moves_enterRoom known (Option.isSome_of_eq_some standing) room, rfl,
        (aside_enterRoom w client.hall room c).reseats c, .enter _ room asked registered, rfl⟩
  | answer response =>
      have calm := calm_answer w c response
      have ends : ∃ outcome, (w.answer c response).2 = .finished outcome := by
        rw [answer]
        split <;> exact ⟨_, rfl⟩
      obtain ⟨outcome, hend⟩ := ends
      have result : w.answer c response = ((w.answer c response).1, .finished outcome) :=
        Prod.ext rfl hend
      dsimp only
      rw [result]
      exact ⟨_, _, _, staged_end rfl calm outcome⟩
  | retire =>
      have aside : Aside w (w.withPool (w.pool.remove (sessionQueueName client.sessionId)).1) :=
        ⟨fun _ => rfl, fun _ => rfl, fun _ => rfl, fun _ => rfl⟩
      exact ⟨_, _, _, (Move.unname w client.sessionId).moves, rfl, aside.reseats c,
        .rest _ [] none noMoves_nil rfl forall_mem_none, _, rfl⟩

/-- The client takes its new seat. -/
theorem staged_arrive {client : Client} (found : w.client? c = some client) (r : RoomRef)
    (name : String) (asked : Bool) :
    ∃ deeds seat next, Staged w c client.standing (.arriving r name asked)
      (w.performSessionTask c client (.arriving r name asked)) deeds seat next := by
  have quiet := quiet_modifyClient w c (f := fun client => { client with room := some r })
    fun _ => rfl
  have reseats := reseats_modifyClient found (some r)
  rw [performSessionTask]
  cases asked with
  | false =>
      exact ⟨_, _, _, quiet.moves, rfl, reseats, .arrive r name false none
        forall_mem_none, _, rfl⟩
  | true =>
      refine ⟨_, _, some _, quiet.moves, rfl, reseats, .arrive r name true _ ?_, rfl⟩
      intro t ht
      obtain rfl := Option.some.inj ht
      exact ⟨rfl, rfl⟩

/-- Every stage of every job of a session is one of the acts. -/
theorem staged_performSessionTask (furnished : Furnished w) {client : Client}
    (found : w.client? c = some client) (task : SessionTask) :
    ∃ deeds seat next,
      Staged w c client.standing task (w.performSessionTask c client task) deeds seat next := by
  cases task with
  | welcome =>
      rw [performSessionTask]
      split
      · exact staged_join rfl _ false
      · exact ⟨_, _, _, staged_end rfl (Calm.refl w) _⟩
  | packet id payload => exact staged_takePacket rfl client id payload
  | command text => exact staged_takeCommand rfl client text
  | farewell => exact ⟨_, _, _, staged_goOn rfl rfl fun between => Bool.noConfusion between⟩
  | leaving n =>
      rw [performSessionTask]
      cases seated : client.room with
      | none =>
          refine ⟨_, _, _, staged_goOn rfl rfl fun _ => .inl ?_⟩
          rw [seat?, found]
          exact seated
      | some r =>
          obtain ⟨deeds, staged⟩ := staged_leave found seated n
          exact ⟨deeds, _, _, staged⟩
  | tidying r n =>
      obtain ⟨deeds, moves, still, none_run⟩ := moves_pushTidy w r
      refine ⟨deeds, _, some (.going n), moves, none_run, (aside_pushTidy w r).reseats c, ?_, rfl⟩
      refine .rest _ deeds _ still rfl fun t ht => ?_
      obtain rfl := Option.some.inj ht
      exact ⟨rfl, fun _ => .inr rfl⟩
  | going n => exact staged_go furnished found n
  | arriving r name asked => exact staged_arrive found r name asked

end Staged

end World

end ChatHall.Server
