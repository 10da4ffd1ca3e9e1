/-
# Errands

What one stage of a job of a session comes to: what it leaves of the world, and
the stage that follows. A job that is called speaks, answers, or sets out to
leave the current room; what comes after that is the same for all jobs. Which of
them may end in a room, which will have left one, and which give up the queue of
their session can be told from the stage alone, and passes on to the next one.
-/

import ChatHall.Proofs.Server.Door
import ChatHall.Proofs.Server.Guest

namespace ChatHall.Server

def Next.enters : Next → Bool
  | enter .. => true
  | _ => false

namespace SessionTask

def mayEnter : SessionTask → Bool
  | welcome | arriving .. => true
  | command text =>
    match Chat.Command.decode text with
    | .ok (.joinRoom _) => true
    | _ => false
  | leaving next | tidying _ next | going next => next.enters
  | packet .. | farewell => false

/-- Whether a job will have left the current room for good. -/
def isParting : SessionTask → Bool
  | farewell | leaving .retire => true
  | _ => false

theorem enters_of_isParting {n : Next} (parts : (leaving n).isParting = true) :
    n.enters = false := by
  cases n with
  | retire => rfl
  | _ => contradiction

/-- Whether a job gives up the queue of the session. -/
def isRetiring : SessionTask → Bool
  | farewell | leaving .retire | tidying _ .retire | going .retire => true
  | _ => false

end SessionTask

namespace World

variable {w v u : World} {c : ClientRef} {client : Client} {task : SessionTask}
variable {next : Option SessionTask}

/-- What may follow the first stage of a job that has been called. -/
inductive Begins : SessionTask → Option SessionTask → Prop
  | done (task : SessionTask) (stays : task ≠ .farewell) : Begins task none
  | answer (task : SessionTask) (response : Chat.Response) (stays : task ≠ .farewell) :
      Begins task (some (.going (.answer response)))
  | leave (task : SessionTask) (response : Chat.Response) (stays : task ≠ .farewell) :
      Begins task (some (.leaving (.answer response)))
  | move (task : SessionTask) (room : String) (asked : Bool) (enters : task.mayEnter = true) :
      Begins task (some (.leaving (.enter room asked)))
  | part : Begins .farewell (some (.leaving .retire))

/-- The rooms and what they are owed are as before, but for tasks that leave everybody where they
are. -/
structure Murmurs (w v : World) : Prop where
  steady : Steady w v
  moves : ∃ deeds, Moves w deeds v ∧ NoMoves deeds ∧ ranIn deeds = []
  register? : ∀ h, v.register? h = w.register? h
  doors : Doors w v

theorem Calm.murmurs (calm : Calm w v) (steady : Steady w v) (doors : Doors w v) : Murmurs w v :=
  ⟨steady, ⟨[], calm.quiet.moves, noMoves_nil, rfl⟩, calm.register?, doors⟩

theorem Murmurs.refl (w : World) : Murmurs w w :=
  (Calm.refl w).murmurs (Steady.refl w) (Doors.refl w)

theorem murmurs_pushToRoom {r : RoomRef} {room : Room} (found : w.room? r = some room)
    {said : RoomTask} (still : said.isMove = false) (other : said ≠ .tidy) :
    Murmurs w (w.pushToRoom r said) where
  steady := steady_pushToRoom w r said
  moves := by
    refine ⟨[.push r said], moves_pushToRoom found still other, ?_, rfl⟩
    intro e listed
    obtain rfl := List.mem_singleton.1 listed
    exact still
  register? := register?_pushToRoom w r said
  doors := doors_pushToRoom w r said

/-- What a stage leaves of the world, and the stage that follows. -/
inductive Errand (w : World) (c : ClientRef) (client : Client) :
    SessionTask → World → Option SessionTask → Prop
  | begin (task : SessionTask) (u : World) (next : Option SessionTask) (call : task.isCall = true)
      (murmurs : Murmurs w u) (begins : Begins task next) : Errand w c client task u next
  | leave (r : RoomRef) (n : Next) (seated : client.room = some r) :
      Errand w c client (.leaving n)
        ((w.modifyClient c fun client => { client with room := none }).pushLeave r client.sessionId)
        (some (.tidying r n))
  /-- The client is in no room. -/
  | pass (n : Next) (nowhere : client.room = none) :
      Errand w c client (.leaving n) w (some (.going n))
  | tidy (r : RoomRef) (n : Next) : Errand w c client (.tidying r n) (w.pushTidy r) (some (.going n))
  | enter (room : String) (asked : Bool) :
      Errand w c client (.going (.enter room asked)) (w.enterRoom client.hall room c).1
        (some (.arriving (w.enterRoom client.hall room c).2 room asked))
  | answer (response : Chat.Response) :
      Errand w c client (.going (.answer response)) (w.answer c response).1 none
  | retire : Errand w c client (.going .retire)
      (w.withPool (w.pool.remove (sessionQueueName client.sessionId)).1) none
  | arrive (r : RoomRef) (room : String) (asked : Bool) (next : Option SessionTask)
      (after : ∀ t ∈ next, ∃ response, t = .going (.answer response)) :
      Errand w c client (.arriving r room asked)
        (w.modifyClient c fun client => { client with room := some r }) next

/-! ## Every stage is an errand -/

/-- A job that has been called comes to this result. -/
def BeginsWith (w : World) (c : ClientRef) (task : SessionTask)
    (result : World × Jobs.Progress Job) : Prop :=
  ∃ next, Murmurs w result.1 ∧ Begins task next ∧ Follows c next result.2

section Calls

theorem beginsWith_done (stays : task ≠ .farewell) (murmurs : Murmurs w v)
    (outcome : Except Jobs.Failure Unit) : BeginsWith w c task (v, .finished outcome) :=
  ⟨none, murmurs, .done task stays, outcome, rfl⟩

theorem beginsWith_goOn {t : SessionTask} (begins : Begins task (some t)) :
    BeginsWith w c task (w.goOn c t) :=
  ⟨some t, .refl w, begins, rfl⟩

theorem beginsWith_reject (stays : task ≠ .farewell) (e : Chat.Error) :
    BeginsWith w c task (w.reject c e) :=
  beginsWith_done stays ((calm_reject w c e).murmurs (steady_reject w c e) (doors_reject w c e)) _

theorem beginsWith_join (enters : task.mayEnter = true) (room : String) (asked : Bool) :
    BeginsWith w c task (w.join c room asked) := by
  have stays : task ≠ .farewell := by
    rintro rfl
    contradiction
  have away : BeginsWith w c task (w.goOn c (.leaving (.enter room asked))) :=
    beginsWith_goOn (.move task room asked enters)
  rw [join]
  cases current : w.currentRoom? c with
  | none => exact away
  | some here =>
      obtain ⟨r, now⟩ := here
      have announced : Murmurs w (w.pushToRoom r .announce) :=
        murmurs_pushToRoom (room?_of_currentRoom? current) rfl RoomTask.noConfusion
      dsimp only
      split
      · split
        · exact ⟨_, announced, .answer task _ stays, rfl⟩
        · exact beginsWith_done stays announced _
      · exact away

theorem murmurs_chat {message : String} (spoken : w.chat c client message = .ok v) :
    Murmurs w v := by
  obtain ⟨r, room, there, rfl⟩ := exists_of_chat spoken
  exact murmurs_pushToRoom there rfl RoomTask.noConfusion

theorem beginsWith_takePacket (stays : task ≠ .farewell) (client : Client) (id : UInt16)
    (payload : Bytes) : BeginsWith w c task (w.takePacket c client id payload) := by
  rw [takePacket]
  split
  · next v taken =>
      refine beginsWith_done stays ?_ _
      cases known : Chat.PacketKind.ofId id with
      | error e =>
          rw [known] at taken
          contradiction
      | ok kind =>
          rw [known] at taken
          cases kind with
          | utterance =>
              cases decoded : Chat.Utterance.decode Chat.PacketKind.utterance.id payload with
              | error e =>
                  rw [decoded] at taken
                  contradiction
              | ok utterance =>
                  rw [decoded] at taken
                  exact murmurs_chat taken
          | broadcast => contradiction
          | roomUpdate => contradiction
  · exact beginsWith_done stays (.refl w) _

theorem beginsWith_takeCommand (client : Client) (text : String) :
    BeginsWith w c (.command text) (w.takeCommand c client text) := by
  have stays : SessionTask.command text ≠ .farewell := SessionTask.noConfusion
  rw [takeCommand]
  cases decoded : Chat.Command.decode text with
  | error e => exact beginsWith_reject stays e
  | ok command =>
      cases command with
      | joinRoom room =>
          refine beginsWith_join ?_ room true
          rw [SessionTask.mayEnter, decoded]
      | leaveRoom room =>
          dsimp only
          split
          · exact beginsWith_reject stays _
          · split
            · exact beginsWith_goOn (.leave _ _ stays)
            · exact beginsWith_goOn (.answer _ _ stays)
      | sendMessage message =>
          dsimp only
          split
          · next spoken => exact beginsWith_done stays (murmurs_chat spoken) _
          · exact beginsWith_reject stays _

end Calls

/-- Every stage of every job of a session is an errand. -/
theorem errand_performSessionTask (w : World) (c : ClientRef) (client : Client)
    (task : SessionTask) :
    ∃ next, Errand w c client task (w.performSessionTask c client task).1 next ∧
      Follows c next (w.performSessionTask c client task).2 := by
  have called (call : task.isCall = true) {result : World × Jobs.Progress Job}
      (h : BeginsWith w c task result) :
      ∃ next, Errand w c client task result.1 next ∧ Follows c next result.2 := by
    obtain ⟨next, murmurs, begins, follows⟩ := h
    exact ⟨next, .begin task _ next call murmurs begins, follows⟩
  cases task with
  | welcome =>
      rw [performSessionTask]
      split
      · exact called rfl (beginsWith_join rfl _ false)
      · exact called rfl (beginsWith_done SessionTask.noConfusion (.refl w) _)
  | packet id payload =>
      exact called rfl (beginsWith_takePacket SessionTask.noConfusion client id payload)
  | command text => exact called rfl (beginsWith_takeCommand client text)
  | farewell => exact called rfl (beginsWith_goOn .part)
  | leaving n =>
      rw [performSessionTask]
      cases seated : client.room with
      | none => exact ⟨_, .pass n seated, rfl⟩
      | some r => exact ⟨_, .leave r n seated, rfl⟩
  | tidying r n => exact ⟨_, .tidy r n, rfl⟩
  | going n =>
      rw [performSessionTask, go.eq_def]
      cases n with
      | enter room asked => exact ⟨_, .enter room asked, rfl⟩
      | answer response =>
          refine ⟨none, .answer response, ?_⟩
          dsimp only
          rw [World.answer]
          split <;> exact ⟨_, rfl⟩
      | retire => exact ⟨none, .retire, _, rfl⟩
  | arriving r room asked =>
      rw [performSessionTask]
      cases asked with
      | false => exact ⟨none, .arrive r room false none forall_mem_none, _, rfl⟩
      | true =>
          refine ⟨_, .arrive r room true (some (.going (.answer (.joined true room)))) ?_, rfl⟩
          intro t ht
          exact ⟨_, (Option.some.inj ht).symm⟩

/-! ## What passes on to the next stage -/

theorem Begins.mayEnter (h : Begins task next) (stays : task.mayEnter = false) :
    ∀ t ∈ next, t.mayEnter = false := by
  intro t ht
  cases h with
  | done => contradiction
  | answer => exact Option.some.inj ht ▸ rfl
  | leave => exact Option.some.inj ht ▸ rfl
  | move _ room asked enters =>
      rw [stays] at enters
      contradiction
  | part => exact Option.some.inj ht ▸ rfl

/-- A job that does not put the client into a room goes on so. -/
theorem Errand.mayEnter (h : Errand w c client task u next) (stays : task.mayEnter = false) :
    ∀ t ∈ next, t.mayEnter = false := by
  intro t ht
  cases h with
  | begin _ _ _ call murmurs begins => exact begins.mayEnter stays t ht
  | leave => exact Option.some.inj ht ▸ stays
  | pass => exact Option.some.inj ht ▸ stays
  | tidy => exact Option.some.inj ht ▸ stays
  | enter => contradiction
  | answer => contradiction
  | retire => contradiction
  | arrive => contradiction

/-- What gives up the queue of its session goes on until its last stage, and nothing else comes
to it. -/
theorem Errand.any_isRetiring (h : Errand w c client task u next) :
    next.any SessionTask.isRetiring = (task.isRetiring && task ≠ .going .retire) := by
  have called (call : task.isCall = true) (stays : task ≠ .farewell) : task.isRetiring = false := by
    cases task <;> first | rfl | contradiction
  cases h with
  | begin task u next call murmurs begins =>
      cases begins with
      | part => rfl
      | done _ stays | answer _ _ stays | leave _ _ stays =>
          rw [called call stays]
          rfl
      | move _ room asked enters =>
          rw [called call]
          · rfl
          · rintro rfl
            contradiction
  | leave r n | pass n | tidy r n => cases n <;> rfl
  | enter room asked => rfl
  | answer response => rfl
  | retire => rfl
  | arrive r room asked next after =>
      cases next with
      | none => rfl
      | some t =>
          obtain ⟨response, rfl⟩ := after t rfl
          rfl

/-- A job that gives up the queue of its session does so in its last stage. -/
theorem Errand.isRetiring (h : Errand w c client task u next) (retires : task.isRetiring = true) :
    task = .going .retire ∨ ∃ t, next = some t ∧ t.isRetiring = true := by
  by_cases last : task = .going .retire
  · exact .inl last
  · have follows := h.any_isRetiring
    rw [retires, decide_eq_true last, Bool.and_true] at follows
    exact .inr ((Option.any_eq_true ..).1 follows)

/-! ## What becomes of the client -/

/-- The room in which the client is, by its own account, after a stage. -/
inductive Errand.Seat : SessionTask → Option RoomRef → Option RoomRef → Prop
  | stays (task : SessionTask) (room : Option RoomRef)
      (still : ∀ n, task = .leaving n → room = none) (settled : task.destination? = none) :
      Seat task room room
  | left (n : Next) (room : Option RoomRef) : Seat (.leaving n) room none
  | arrived (r : RoomRef) (name : String) (asked : Bool) (room : Option RoomRef) :
      Seat (.arriving r name asked) room (some r)

/-- The client changes its seat, and nothing else about any guest changes. -/
theorem Errand.guest? (h : Errand w c client task u next) (found : w.client? c = some client) :
    ∃ seat, Errand.Seat task client.room seat ∧
      ∀ d, u.guest? d = if d = c then some { client.guest with room := seat } else w.guest? d := by
  have own := guest?_of_client found
  have steadily {x : World} (steady : Steady w x) (d : ClientRef) :
      x.guest? d = if d = c then some { client.guest with room := client.room } else w.guest? d := by
    rw [steady.guest?]
    split
    · next same =>
        rw [same]
        exact own
    · rfl
  have moved (seat : Option RoomRef) (d : ClientRef) :
      (w.modifyClient c fun client => { client with room := seat }).guest? d =
        if d = c then some { client.guest with room := seat } else w.guest? d := by
    rw [guest?_modifyClient w c d (g := fun g => { g with room := seat }) fun _ => rfl]
    by_cases same : c = d
    · rw [if_pos same, if_pos same.symm, ← same, own]
      rfl
    · rw [if_neg same, if_neg (Ne.symm same)]
  cases h with
  | begin task u next call murmurs =>
      refine ⟨_, .stays _ _ ?_ (SessionTask.of_isCall call).1, steadily murmurs.steady⟩
      rintro n rfl
      contradiction
  | leave r n =>
      exact ⟨_, .left n _, fun d => ((steady_pushToRoom _ r _).guest? d).trans (moved none d)⟩
  | pass n nowhere => exact ⟨_, .stays _ _ (fun _ _ => nowhere) rfl, steadily (Steady.refl w)⟩
  | tidy r => exact ⟨_, .stays _ _ (fun _ => (nomatch ·)) rfl, steadily (steady_pushTidy w r)⟩
  | enter room =>
      exact ⟨_, .stays _ _ (fun _ => (nomatch ·)) rfl, steadily (steady_enterRoom w _ room c)⟩
  | answer response =>
      exact ⟨_, .stays _ _ (fun _ => (nomatch ·)) rfl, steadily (steady_answer w c response)⟩
  | retire =>
      refine ⟨_, .stays _ _ (fun _ => (nomatch ·)) rfl, fun d => ?_⟩
      exact steadily (Steady.refl w) d
  | arrive r => exact ⟨_, .arrived .., moved (some r)⟩

/-- No stage touches the sessions of a hall or takes a client in hand. -/
theorem Errand.halls (h : Errand w c client task u next) :
    (∀ k sessionId, u.session? k sessionId = w.session? k sessionId) ∧
      ∀ k d, u.inHand? k = some d → w.inHand? k = some d := by
  have steadily {x y : World} (halls : x.state.halls = w.state.halls) (steady : Steady x y) :
      (∀ k sessionId, y.session? k sessionId = w.session? k sessionId) ∧
        ∀ k d, y.inHand? k = some d → w.inHand? k = some d := by
    have same (k : HallRef) : x.hall? k = w.hall? k := congrArg (·[k]?) halls
    refine ⟨fun k sessionId => ?_, fun k d held => ?_⟩
    · rw [steady.session?, World.session?, same, World.session?]
    · have before := steady.inHand? k d held
      rwa [World.inHand?, same] at before
  cases h with
  | begin _ _ _ call murmurs => exact steadily rfl murmurs.steady
  | leave r =>
      exact steadily (x := w.modifyClient c fun client => { client with room := none }) rfl
        (steady_pushToRoom _ r _)
  | pass => exact steadily rfl (Steady.refl w)
  | tidy r => exact steadily rfl (steady_pushTidy w r)
  | enter room => exact steadily rfl (steady_enterRoom w _ room c)
  | answer response => exact steadily rfl (steady_answer w c response)
  | retire => exact ⟨fun _ _ => rfl, fun _ _ => id⟩
  | arrive => exact ⟨fun _ _ => rfl, fun _ _ => id⟩

theorem Errand.doors (h : Errand w c client task u next) : Doors w u := by
  cases h with
  | begin _ _ _ call murmurs => exact murmurs.doors
  | leave r => exact (doors_modifyClient w c _).trans (doors_pushToRoom _ r _)
  | pass => exact Doors.refl w
  | tidy r => exact doors_pushTidy w r
  | enter room => exact doors_enterRoom w _ room c
  | answer response => exact doors_answer w c response
  | retire => exact Doors.refl w
  | arrive => exact doors_modifyClient w c _

/-- Only the last stage of a farewell takes a name away, that of its own session. -/
theorem Errand.named (h : Errand w c client task u next) (k : Nat) :
    u.pool.find? (sessionQueueName k) =
      if task = .going .retire ∧ sessionQueueName k = sessionQueueName client.sessionId then none
      else w.pool.find? (sessionQueueName k) := by
  have steadily {x : World} (steady : Steady w x) (other : task ≠ .going .retire) :
      x.pool.find? (sessionQueueName k) =
        if task = .going .retire ∧ sessionQueueName k = sessionQueueName client.sessionId then none
        else w.pool.find? (sessionQueueName k) := by
    rw [if_neg fun both => other both.1]
    exact steady.named k
  cases h with
  | begin _ _ _ call murmurs =>
      refine steadily murmurs.steady ?_
      rintro rfl
      contradiction
  | leave r =>
      rw [if_neg fun both => SessionTask.noConfusion both.1]
      exact (steady_pushToRoom _ r _).named k
  | pass => exact steadily (Steady.refl w) SessionTask.noConfusion
  | tidy r => exact steadily (steady_pushTidy w r) SessionTask.noConfusion
  | enter room => exact steadily (steady_enterRoom w _ room c) (by simp)
  | answer response => exact steadily (steady_answer w c response) (by simp)
  | retire =>
      have removed := Jobs.Pool.find?_remove (p := w.pool) (sessionQueueName client.sessionId)
        (sessionQueueName k)
      simp only [true_and]
      exact removed
  | arrive => exact (if_neg fun both => SessionTask.noConfusion both.1).symm

end World

end ChatHall.Server
