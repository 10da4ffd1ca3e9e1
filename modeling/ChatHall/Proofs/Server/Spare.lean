/-
# What others leave to a job

While a job of a session is under way, other threads take steps of their own. They may push
to its queue, but they take nothing from it; and no job but those of a client moves the
client or replies to it. So whatever such a job has found out about its client still holds
at its next stage, and its replies are all there are.
-/

import ChatHall.Proofs.Server.Handout
import ChatHall.Proofs.Server.Speech

namespace ChatHall

namespace Jobs.Queue

variable {J : Type} {q : Queue J}

@[simp]
theorem executed_push (job : J) : (q.push job).executed = q.executed := by
  rw [Queue.push, Queue.wake]
  split <;> rfl

@[simp]
theorem failed_push (job : J) : (q.push job).failed = q.failed := by
  rw [Queue.push, Queue.wake]
  split <;> rfl

/-- A queue that is pushed to counts and executes as before. -/
theorem foldl_push (jobs : List J) (q : Queue J) :
    (jobs.foldl Queue.push q).executing = q.executing ∧
      (jobs.foldl Queue.push q).executed = q.executed ∧
      (jobs.foldl Queue.push q).failed = q.failed := by
  induction jobs generalizing q with
  | nil => exact ⟨rfl, rfl, rfl⟩
  | cons job later ih =>
      obtain ⟨executing, executed, failed⟩ := ih (q.push job)
      exact ⟨executing.trans (executing_push job), executed.trans (executed_push job),
        failed.trans (failed_push job)⟩

end Jobs.Queue

namespace Server

/-- The direct reply to a client that something sent is, if it is one. -/
def Outgoing.response? : Outgoing → Option Chat.Response
  | response r => some r
  | _ => none

namespace World

variable {w v u : World} {past : List (RoomRef × RoomTask)} {q k : Jobs.QueueRef}
variable {d : Option ClientRef} {c : ClientRef}

def replies (w : World) (c : ClientRef) : List Chat.Response :=
  (w.sent c).filterMap Outgoing.response?

/-- Where a client is, by its own account, and the replies it has been sent. -/
def account? (w : World) (c : ClientRef) : Option (Option RoomRef × List Chat.Response) :=
  (w.client? c).map fun client => (client.room, client.sent.filterMap Outgoing.response?)

/-- A queue is at most pushed to, and nobody but one client, if that, is moved or replied to. -/
structure Spares (q : Jobs.QueueRef) (d : Option ClientRef) (w v : World) : Prop where
  queue : ∀ queue, w.pool.queue? q = some queue →
    ∃ jobs : List Job, v.pool.queue? q = some (jobs.foldl Jobs.Queue.push queue)
  account : ∀ c a, some c ≠ d → w.account? c = some a → v.account? c = some a

theorem spares_of_eq (queue : v.pool.queue? q = w.pool.queue? q)
    (account : ∀ c, v.account? c = w.account? c) : Spares q d w v where
  queue _ found := ⟨[], queue.trans found⟩
  account c _ _ found := (account c).trans found

@[refl]
theorem Spares.refl (q : Jobs.QueueRef) (d : Option ClientRef) (w : World) : Spares q d w w :=
  spares_of_eq rfl fun _ => rfl

theorem Spares.trans (first : Spares q d w v) (second : Spares q d v u) : Spares q d w u where
  queue queue found := by
    obtain ⟨jobs, between⟩ := first.queue queue found
    obtain ⟨later, after⟩ := second.queue _ between
    refine ⟨jobs ++ later, ?_⟩
    rw [List.foldl_append]
    exact after
  account c a other found := second.account c a other (first.account c a other found)

theorem account?_of_client {client : Client} (found : w.client? c = some client) :
    w.account? c = some (w.seat? c, w.replies c) := by
  rw [account?, found, seat?, found, replies, sent, found]
  rfl

theorem Spares.accounts (h : Spares q d w v) {client : Client} (found : w.client? c = some client)
    (other : some c ≠ d) : v.seat? c = w.seat? c ∧ v.replies c = w.replies c := by
  have same := h.account c _ other (account?_of_client found)
  obtain ⟨now, known, -⟩ := Option.map_eq_some_iff.1 same
  rw [account?_of_client known] at same
  exact Prod.mk.inj (Option.some.inj same)

theorem Spares.seat? (h : Spares q d w v) {client : Client} (found : w.client? c = some client)
    (other : some c ≠ d) : v.seat? c = w.seat? c := (h.accounts found other).1

theorem Spares.replies (h : Spares q d w v) {client : Client} (found : w.client? c = some client)
    (other : some c ≠ d) : v.replies c = w.replies c := (h.accounts found other).2

/-! ## Changes of one client, room or hall -/

theorem account?_modifyClient (w : World) (c e : ClientRef) (f : Client → Client) :
    (w.modifyClient c f).account? e =
      if c = e then (w.client? e).map fun client =>
        ((f client).room, (f client).sent.filterMap Outgoing.response?)
      else w.account? e := by
  rw [account?, client?_modifyClient]
  split
  · exact Option.map_map ..
  · rfl

/-- A change of a client that neither moves it nor replies to it. -/
theorem spares_modifyClient (w : World) (c : ClientRef) {f : Client → Client}
    (room : ∀ client, (f client).room = client.room)
    (sent : ∀ client, (f client).sent.filterMap Outgoing.response? =
      client.sent.filterMap Outgoing.response?) : Spares q d w (w.modifyClient c f) := by
  refine spares_of_eq rfl fun e => ?_
  rw [account?_modifyClient]
  split
  · simp only [room, sent]
    rfl
  · rfl

theorem spares_modifyOwn (w : World) (c : ClientRef) (f : Client → Client) :
    Spares q (some c) w (w.modifyClient c f) where
  queue _ found := ⟨[], found⟩
  account e a other found := by
    rw [account?_modifyClient, if_neg]
    · exact found
    · rintro rfl
      exact other rfl

theorem spares_modifyRoom (w : World) (r : RoomRef) (f : Room → Room) :
    Spares q d w (w.modifyRoom r f) := spares_of_eq rfl fun _ => rfl

theorem spares_modifyHall (w : World) (h : HallRef) (f : Hall → Hall) :
    Spares q d w (w.modifyHall h f) := spares_of_eq rfl fun _ => rfl

/-! ## Queues -/

theorem spares_push (w : World) (k : Jobs.QueueRef) (job : Job) : Spares q d w (w.push k job) where
  queue queue found := by
    have pushed := Jobs.Pool.queue?_modify (p := w.pool) k q fun queue => queue.push job
    rw [found] at pushed
    split at pushed
    · exact ⟨[job], pushed⟩
    · exact ⟨[], pushed⟩
  account _ _ _ found := found

theorem spares_pushToRoom (w : World) (r : RoomRef) (task : RoomTask) :
    Spares q d w (w.pushToRoom r task) := by
  rw [pushToRoom]
  split
  · exact spares_push w _ _
  · exact Spares.refl q d w

theorem spares_pushToSession (w : World) (c : ClientRef) (task : SessionTask) :
    Spares q d w (w.pushToSession c task) := by
  rw [pushToSession]
  split
  · exact spares_push w _ _
  · exact Spares.refl q d w

theorem spares_pushTidy (w : World) (r : RoomRef) : Spares q d w (w.pushTidy r) := by
  rw [pushTidy]
  split
  · split
    · exact Spares.refl q d w
    · exact spares_pushToRoom w r .tidy
  · exact Spares.refl q d w

/-- Queues may be made, and names given and taken away. -/
theorem spares_withPool (w : World) {pool : Jobs.Pool Job}
    (kept : ∀ queue, w.pool.queue? q = some queue → pool.queue? q = some queue) :
    Spares q d w (w.withPool pool) where
  queue queue found := ⟨[], kept queue found⟩
  account _ _ _ found := found

/-- A step of a queue changes no other one. -/
theorem spares_modifyQueue (w : World) (other : k ≠ q) (f : Jobs.Queue Job → Jobs.Queue Job) :
    Spares q d w (w.updatePool (·.modify k f)) := by
  have same := Jobs.Pool.queue?_modify (p := w.pool) k q f
  rw [if_neg other] at same
  exact spares_of_eq same fun _ => rfl

theorem spares_getOrCreateRoom (w : World) (h : HallRef) (name : String) :
    Spares q d w (w.getOrCreateRoom h name).1 := by
  rw [getOrCreateRoom]
  split
  · exact Spares.refl q d w
  · have made : Spares q d w (w.withPool (w.pool.getOrCreate (roomQueueName name)).1) :=
      spares_withPool w fun _ => Jobs.Pool.queue?_getOrCreate_of_some _
    exact made.trans (spares_of_eq rfl fun _ => rfl)

theorem spares_enterRoom (w : World) (h : HallRef) (name : String) (c : ClientRef) :
    Spares q d w (w.enterRoom h name c).1 :=
  ((spares_getOrCreateRoom w h name).trans (spares_modifyRoom _ _ _)).trans
    (spares_pushToRoom _ _ _)

theorem spares_newClient (w : World) (h : HallRef) : Spares q d w (w.newClient h).1 := by
  have numbered : Spares q d w (w.takeSessionId h).1 := by
    rw [takeSessionId]
    split
    · exact spares_modifyHall w h _
    · exact Spares.refl q d w
  have created (x : World) (name : String) : Spares q d x (x.withPool (x.pool.create name).1) := by
    refine spares_withPool x fun queue found => ?_
    rw [Jobs.Pool.queue?_create, if_neg]
    · exact found
    · rintro rfl
      rw [Jobs.Pool.queue?_length] at found
      contradiction
  refine (numbered.trans (created _ _)).trans ⟨fun _ found => ⟨[], found⟩, fun c a _ found => ?_⟩
  obtain ⟨client, known, rfl⟩ := Option.map_eq_some_iff.1 found
  refine Option.map_eq_some_iff.2 ⟨client, ?_, rfl⟩
  have old := (List.getElem?_eq_some_iff.1 known).1
  exact (List.getElem?_append_left old).trans known

/-! ## Sending -/

/-- A client is sent something that is no reply, or that is its own. -/
theorem spares_send {o : Outgoing} (may : o.response? = none ∨ d = some c)
    (sent : w.send c o = .ok v) : Spares q d w v := by
  rw [send] at sent
  cases found : w.client? c with
  | none =>
      rw [found] at sent
      exact Except.ok.inj sent ▸ Spares.refl q d w
  | some client =>
      simp only [found] at sent
      split at sent
      · contradiction
      · obtain rfl := Except.ok.inj sent
        rcases may with silent | rfl
        · refine spares_modifyClient w c (fun _ => rfl) fun client => ?_
          rw [List.filterMap_append, List.filterMap_cons, silent]
          exact List.append_nil _
        · exact spares_modifyOwn w c _

theorem spares_trySend (w : World) {o : Outgoing} (may : o.response? = none ∨ d = some c) :
    Spares q d w (w.trySend c o) := by
  rw [trySend]
  split
  · next sent => exact spares_send may sent
  · exact Spares.refl q d w

theorem spares_broadcast (w : World) (r : RoomRef) {o : Outgoing} (silent : o.response? = none) :
    Spares q d w (w.broadcast r o) := by
  have all (clients : List ClientRef) (w : World) :
      Spares q d w (clients.foldl (fun w c => w.trySend c o) w) := by
    induction clients generalizing w with
    | nil => exact Spares.refl q d w
    | cons c later ih => exact (spares_trySend w (.inl silent)).trans (ih _)
  rw [broadcast]
  split
  · exact all _ w
  · exact Spares.refl q d w

theorem spares_sendUpdate (w : World) (r : RoomRef) (event : Chat.RoomEvent)
    (playerId : Option Nat) : Spares q d w (w.sendUpdate r event playerId) := by
  rw [sendUpdate]
  split
  · exact spares_broadcast w r rfl
  · exact Spares.refl q d w

theorem spares_answer (w : World) (c : ClientRef) (response : Chat.Response) :
    Spares q (some c) w (w.answer c response).1 := by
  rw [answer]
  split
  · next sent => exact spares_send (.inr rfl) sent
  · exact Spares.refl q _ w

theorem spares_reject (w : World) (c : ClientRef) (e : Chat.Error) :
    Spares q (some c) w (w.reject c e).1 := spares_trySend w (.inr rfl)

/-! ## Tasks -/

theorem spares_performRoomTask (w : World) (r : RoomRef) (task : RoomTask) :
    Spares q d w (w.performRoomTask r task) := by
  rw [performRoomTask.eq_def]
  cases task with
  | enter c =>
      dsimp only
      split
      · exact Spares.refl q d w
      · exact (spares_modifyRoom w r _).trans (spares_sendUpdate _ _ _ _)
  | leave playerId =>
      dsimp only
      split
      · exact (spares_modifyRoom w r _).trans (spares_sendUpdate _ _ _ _)
      · exact spares_modifyRoom w r _
  | say playerId message => exact spares_broadcast w r rfl
  | announce => exact spares_sendUpdate w r _ _
  | tidy =>
      dsimp only
      rcases removeIfVacant_cases w r with same | ⟨room, -, -, -, struck⟩
      · rw [same]
      · rw [struck]
        exact spares_of_eq rfl fun _ => rfl

theorem spares_join (w : World) (c : ClientRef) (room : String) (asked : Bool) :
    Spares q d w (w.join c room asked).1 := by
  rw [join]
  split
  · split
    · dsimp only
      split <;> exact spares_pushToRoom w _ _
    · exact Spares.refl q d w
  · exact Spares.refl q d w

/-- A binary packet passes its message on, or its job fails. -/
theorem takePacket_cases (w : World) (c : ClientRef) (client : Client) (id : UInt16)
    (payload : Bytes) :
    (∃ message v, messageOf? (.binary id payload) = some message ∧
      w.chat c client message = .ok v ∧ w.takePacket c client id payload = v.succeed) ∨
    ∃ e : Chat.Error, w.takePacket c client id payload = w.failWith e.message ∧
      ∀ message, messageOf? (.binary id payload) = some message →
        ∃ e, w.chat c client message = .error e := by
  have mute (e : Chat.Error) (nothing : messageOf? (.binary id payload) = none)
      (failed : w.takePacket c client id payload = w.failWith e.message) :
      ∃ e : Chat.Error, w.takePacket c client id payload = w.failWith e.message ∧
        ∀ message, messageOf? (.binary id payload) = some message →
          ∃ e, w.chat c client message = .error e := by
    refine ⟨e, failed, fun message said => ?_⟩
    rw [nothing] at said
    contradiction
  cases known : Chat.PacketKind.ofId id with
  | error e =>
      refine .inr (mute e ?_ ?_)
      · rw [messageOf?, known]
      · rw [takePacket, known]
        rfl
  | ok kind =>
      cases kind with
      | utterance =>
          cases decoded : Chat.Utterance.decode Chat.PacketKind.utterance.id payload with
          | error e =>
              refine .inr (mute e ?_ ?_)
              · simp only [messageOf?, known, decoded]
              · simp only [takePacket, known, decoded, bind, Except.bind]
          | ok utterance =>
              have said : messageOf? (.binary id payload) = some utterance.message := by
                simp only [messageOf?, known, decoded]
              cases spoken : w.chat c client utterance.message with
              | error e =>
                  refine .inr ⟨e, ?_, fun message again => ?_⟩
                  · simp only [takePacket, known, decoded, bind, Except.bind, spoken]
                  · obtain rfl := Option.some.inj (said.symm.trans again)
                    exact ⟨e, spoken⟩
              | ok v =>
                  refine .inl ⟨utterance.message, v, said, spoken, ?_⟩
                  simp only [takePacket, known, decoded, bind, Except.bind, spoken]
      | broadcast | roomUpdate =>
          refine .inr (mute (.badCommand s!"서버 전용 패킷: {id}") ?_ ?_)
          · rw [messageOf?, known]
          · rw [takePacket, known]
            rfl

theorem spares_chat {client : Client} {message : String}
    (spoken : w.chat c client message = .ok v) : Spares q d w v := by
  obtain ⟨r, room, -, rfl⟩ := exists_of_chat spoken
  exact spares_pushToRoom w r _

theorem spares_takePacket (w : World) (c : ClientRef) (client : Client) (id : UInt16)
    (payload : Bytes) : Spares q d w (w.takePacket c client id payload).1 := by
  rcases takePacket_cases w c client id payload with
    ⟨message, v, -, spoken, passed⟩ | ⟨e, failed, -⟩
  · rw [passed]
    exact spares_chat spoken
  · rw [failed]
    exact Spares.refl q d w

theorem spares_takeCommand (w : World) (c : ClientRef) (client : Client) (text : String) :
    Spares q (some c) w (w.takeCommand c client text).1 := by
  rw [takeCommand]
  split
  · exact spares_reject w c _
  · exact spares_join w c _ true
  · split
    · exact spares_reject w c _
    · exact Spares.refl q _ w
  · split
    · next spoken => exact spares_chat spoken
    · exact spares_reject w c _

/-- A stage of a job moves and answers nobody but its client, and takes nothing off a queue. -/
theorem spares_performSessionTask (w : World) (c : ClientRef) (client : Client)
    (task : SessionTask) : Spares q (some c) w (w.performSessionTask c client task).1 := by
  cases task with
  | welcome =>
      rw [performSessionTask]
      split
      · exact spares_join w c _ false
      · exact Spares.refl q _ w
  | packet id payload => exact spares_takePacket w c client id payload
  | command text => exact spares_takeCommand w c client text
  | farewell => exact Spares.refl q _ w
  | leaving n =>
      rw [performSessionTask]
      split
      · exact Spares.refl q _ w
      · exact (spares_modifyOwn w c _).trans (spares_pushToRoom _ _ _)
  | tidying r n => exact spares_pushTidy w r
  | going n =>
      rw [performSessionTask, go.eq_def]
      cases n with
      | enter room asked => exact spares_enterRoom w client.hall room c
      | answer response => exact spares_answer w c response
      | retire => exact spares_withPool w fun _ => id
  | arriving r room asked =>
      rw [performSessionTask]
      split <;> exact spares_modifyOwn w c _

/-- No stage of a job takes anything off a queue, and at most one client is moved or replied to. -/
theorem spares_perform (w : World) (k : Jobs.QueueRef) (job : Job) :
    ∃ d, (∀ c ∈ d, ∃ task, job = .session c task) ∧ Spares q d w (perform k job w).1 := by
  cases job with
  | room r task => exact ⟨none, nofun, spares_performRoomTask w r task⟩
  | session c task =>
      refine ⟨some c, fun e same => ⟨task, ?_⟩, ?_⟩
      · rw [Option.some.inj same]
      · cases known : w.client? c with
        | none =>
            simp only [perform, known]
            exact Spares.refl q _ w
        | some client =>
            simp only [perform, known]
            exact spares_performSessionTask w c client task
  | hold gate =>
      refine ⟨none, nofun, ?_⟩
      rw [perform]
      split
      · exact spares_of_eq rfl fun _ => rfl
      · exact Spares.refl q _ w

/-! ## Steps of drains -/

theorem account?_of_state (state : v.state = w.state) (c : ClientRef) :
    v.account? c = w.account? c := by
  rw [account?, client?, state, account?, client?]

/-- A job moves and replies to nobody but the client of its own queue. -/
theorem Tended.spares_of_phase (h : Tended past w) {i : Nat} {job : Job} (other : k ≠ q)
    (phase : Jobs.Realm.phase? w k i = some (.executing job)) :
    ∃ d, (∀ c client, w.client? c = some client → client.queue = q → some c ≠ d) ∧
      Spares q d w (perform k job w).1 := by
  obtain ⟨d, theirs, spares⟩ := spares_perform (q := q) w k job
  refine ⟨d, fun c client found here same => ?_, spares⟩
  obtain ⟨task, rfl⟩ := theirs c same.symm
  obtain ⟨queue, busy, alive⟩ := phase?_eq_some.1 phase
  obtain ⟨again, known, own⟩ :=
    client_of_executing h.agreed.inOrder.furnished.serial h.placed busy alive
  obtain rfl := Option.some.inj (found.symm.trans known)
  exact other (own.symm.trans here)

/-- Whoever is moved or replied to by another queue than this is not one of the clients of this. -/
theorem Tended.spares_of_work (h : Tended past w) {i : Nat} (other : k ≠ q)
    (after : Jobs.Realm.advance? perform w k i = some v) :
    ∃ d, (∀ c client, w.client? c = some client → client.queue = q → some c ≠ d) ∧
      Spares q d w v := by
  have alone (f : Jobs.Queue Job → Jobs.Queue Job) :
      ∃ d, (∀ c client, w.client? c = some client → client.queue = q → some c ≠ d) ∧
        Spares q d w (w.updatePool (·.modify k f)) :=
    ⟨none, fun c _ _ _ => Option.some_ne_none c, spares_modifyQueue w other f⟩
  cases advances_of_advance? after with
  | fetches _ => exact alone _
  | rechecks _ => exact alone _
  | @finishes _ outcome u _ phase performed state pool =>
      obtain ⟨d, theirs, spares⟩ := h.spares_of_phase other phase
      rw [performed] at spares
      have finished := spares_modifyQueue (d := d) u other (·.finish i outcome)
      refine ⟨d, theirs, spares.trans ⟨fun queue found => ?_, fun c a _ found => ?_⟩⟩
      · rw [pool]
        exact finished.queue queue found
      · rw [account?_of_state state]
        exact found
  | @continues _ _ u phase performed =>
      obtain ⟨d, theirs, spares⟩ := h.spares_of_phase other phase
      rw [performed] at spares
      exact ⟨d, theirs, spares.trans (spares_modifyQueue u other _)⟩

/-! ## Events -/

/-- A note of what has become of a client. -/
theorem spares_note (w : World) (c : ClientRef) {f : Client → Client}
    (room : ∀ client, (f client).room = client.room)
    (sent : ∀ client, (f client).sent = client.sent) : Spares q d w (w.modifyClient c f) :=
  spares_modifyClient w c room fun client => congrArg _ (sent client)

theorem spares_close (w : World) (c : ClientRef) : Spares q d w (w.close c) :=
  spares_note w c (fun _ => by split <;> rfl) fun _ => by split <;> rfl

theorem spares_of_arriveStep? (after : w.arriveStep? c = some v) : Spares q d w v := by
  simp only [arriveStep?, Option.bind_eq_bind, Option.bind_eq_some_iff,
    Option.ite_none_left_eq_some] at after
  obtain ⟨client, found, -, after⟩ := after
  split at after
  · obtain rfl := Option.some.inj after
    exact spares_note w c (fun _ => rfl) fun _ => rfl
  · obtain rfl := Option.some.inj after
    rw [registerQueue, found]
    have registered : Spares q d w (w.withPool (w.pool.register client.queue)) :=
      spares_withPool w fun _ => (Jobs.Pool.queue?_register _ _).trans
    exact registered.trans (spares_note _ c (fun _ => rfl) fun _ => rfl)
  · obtain rfl := Option.some.inj after
    rw [enlist, found]
    exact (spares_modifyHall w _ _).trans (spares_note _ c (fun _ => rfl) fun _ => rfl)
  · obtain rfl := Option.some.inj after
    exact (spares_pushToSession w c _).trans (spares_note _ c (fun _ => rfl) fun _ => rfl)
  · contradiction

theorem spares_of_departStep? (after : w.departStep? c = some v) : Spares q d w v := by
  simp only [departStep?, Option.bind_eq_bind, Option.bind_eq_some_iff] at after
  obtain ⟨client, found, after⟩ := after
  split at after
  · rw [Option.ite_none_right_eq_some, Option.some.injEq] at after
    obtain ⟨-, rfl⟩ := after
    exact spares_close w c
  · obtain rfl := Option.some.inj after
    rw [delist, found]
    exact (spares_modifyHall w _ _).trans (spares_note _ c (fun _ => rfl) fun _ => rfl)
  · obtain rfl := Option.some.inj after
    exact (spares_pushToSession w c _).trans (spares_note _ c (fun _ => rfl) fun _ => rfl)
  · contradiction

theorem spares_of_dismissStep? {h : HallRef} (after : w.dismissStep? h = some v) :
    Spares q d w v := by
  simp only [dismissStep?, Option.bind_eq_bind, Option.bind_eq_some_iff] at after
  obtain ⟨hall, -, clients, -, after⟩ := after
  split at after
  · contradiction
  · next c later =>
      obtain rfl := Option.some.inj after
      have taken : Spares q d w (w.modifyHall h fun hall =>
          { hall with dismissing := some later }) := spares_modifyHall w h _
      split
      · exact taken.trans (spares_close _ c)
      · exact taken

/-- What is no step of a queue moves nobody, and replies to nobody. -/
theorem spares_of_after? {e : Event} (outer : ∀ k i, e ≠ .work k i) (after : w.after? e = some v) :
    Spares q d w v := by
  cases e with
  | openHall defaultRoom =>
      obtain rfl := Option.some.inj after
      have opened : Spares q d w (w.openHall defaultRoom).1 := spares_of_eq rfl fun _ => rfl
      exact opened.trans (spares_getOrCreateRoom _ _ _)
  | room h name =>
      simp only [after?, Option.ite_none_right_eq_some, Option.some.injEq] at after
      obtain ⟨-, rfl⟩ := after
      exact spares_getOrCreateRoom w h name
  | enterRoom h name c =>
      simp only [after?, Option.ite_none_right_eq_some, Option.some.injEq] at after
      obtain ⟨-, rfl⟩ := after
      exact spares_enterRoom w h name c
  | leaveRoom r playerId =>
      simp only [after?, Option.ite_none_right_eq_some, Option.some.injEq] at after
      obtain ⟨-, rfl⟩ := after
      exact (spares_pushToRoom w r _).trans (spares_pushTidy _ r)
  | tidyRoom r =>
      simp only [after?, Option.ite_none_right_eq_some, Option.some.injEq] at after
      obtain ⟨-, rfl⟩ := after
      exact spares_pushTidy w r
  | accept h =>
      simp only [after?, acceptStep?, Option.bind_eq_bind, Option.bind_eq_some_iff,
        Option.ite_none_right_eq_some, Option.some.injEq] at after
      obtain ⟨hall, -, -, rfl⟩ := after
      exact (spares_newClient w h).trans (spares_modifyHall _ h _)
  | start h works =>
      simp only [after?, startStep?, Option.bind_eq_bind, Option.bind_eq_some_iff,
        Option.some.injEq] at after
      obtain ⟨hall, -, c, -, rfl⟩ := after
      have emptied : Spares q d w (w.modifyHall h fun hall => { hall with inHand := none }) :=
        spares_modifyHall w h _
      split
      · exact emptied.trans (spares_note _ c (fun _ => rfl) fun _ => rfl)
      · exact emptied
  | arrive c => exact spares_of_arriveStep? after
  | packet c p =>
      simp only [after?, Option.ite_none_right_eq_some, Option.some.injEq] at after
      obtain ⟨-, rfl⟩ := after
      cases p with
      | binary id payload => exact spares_pushToSession w c _
      | json text => exact spares_pushToSession w c _
  | depart c => exact spares_of_departStep? after
  | release c =>
      simp only [after?, Option.ite_none_right_eq_some, Option.some.injEq] at after
      obtain ⟨-, rfl⟩ := after
      exact spares_note w c (fun _ => by split <;> rfl) fun _ => by split <;> rfl
  | work k i => exact absurd rfl (outer k i)
  | stop h =>
      simp only [after?, Option.ite_none_right_eq_some, Option.some.injEq] at after
      obtain ⟨-, rfl⟩ := after
      exact spares_modifyHall w h _
  | lookAround h =>
      simp only [after?, Option.ite_none_right_eq_some, Option.some.injEq] at after
      obtain ⟨-, rfl⟩ := after
      exact spares_modifyHall w h _
  | dismiss h => exact spares_of_dismissStep? after

/-- No event but the steps of a queue takes a job from it, or moves one of its clients or replies
to it. -/
theorem Tended.spares (h : Tended past w) {e : Event} (other : ∀ i, e ≠ .work q i)
    (after : w.after? e = some v) :
    ∃ d, (∀ c client, w.client? c = some client → client.queue = q → some c ≠ d) ∧
      Spares q d w v := by
  cases e with
  | work k i =>
      refine h.spares_of_work ?_ after
      rintro rfl
      exact other i rfl
  | _ =>
      exact ⟨none, fun c _ _ _ => Option.some_ne_none c,
        spares_of_after? (fun _ _ => Event.noConfusion) after⟩

end World

end Server

end ChatHall
