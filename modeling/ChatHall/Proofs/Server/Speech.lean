/-
# What rooms are asked to say

The jobs of a session are performed in the order in which its packets arrived. A packet
that has something to say, whichever of the two forms it has, makes its session ask the
room in which the client then is to say it, at once and in a single stage; nothing else
that happens makes anybody ask a room to say anything.
-/

import ChatHall.Proofs.Server.Farewell

namespace ChatHall.Server

def SessionTask.packet? : SessionTask → Option Wire.Packet
  | packet id payload => some (.binary id payload)
  | command text => some (.json text)
  | _ => none

def RoomTask.isSay : RoomTask → Bool
  | say .. => true
  | _ => false

def messageOf? : Wire.Packet → Option String
  | .binary id payload =>
    match Chat.PacketKind.ofId id with
    | .ok .utterance =>
      match Chat.Utterance.decode Chat.PacketKind.utterance.id payload with
      | .ok utterance => some utterance.message
      | .error _ => none
    | _ => none
  | .json text =>
    match Chat.Command.decode text with
    | .ok (.sendMessage message) => some message
    | _ => none

/-- The message that a packet carries, if it may be passed on. -/
def utterance? (p : Wire.Packet) : Option String :=
  (messageOf? p).filter fun message => (Chat.validateMessage message).isOk

structure Taking where
  client : ClientRef
  playerId : Nat
  /-- The room in which the client is then, by its own account. -/
  seat : Option RoomRef
  packet : Wire.Packet
  deriving Repr, DecidableEq

/-- What a room is asked to say for a packet that is taken up. -/
def Taking.speech? (t : Taking) (r : RoomRef) : Option RoomTask :=
  if t.seat = some r then (utterance? t.packet).map (.say t.playerId) else none

/-- The packet that arrives for a client with an event. -/
def Event.arrival? (c : ClientRef) : Event → Option Wire.Packet
  | packet d p => if d = c then some p else none
  | _ => none

namespace World

variable {w v u : World} {past : List (RoomRef × RoomTask)} {e : Event} {c : ClientRef}
variable {client : Client}

/-- The packet that a session takes up with an event. -/
def takes? (w : World) : Event → Option Taking
  | .work q i =>
    match Jobs.Realm.phase? w q i with
    | some (.executing (.session c task)) =>
      (w.client? c).bind fun client =>
        task.packet?.map (Taking.mk c client.sessionId client.room)
    | _ => none
  | _ => none

/-- The packet of a job, if it is one of this client that takes a packet in. -/
def packetFor (c : ClientRef) (duty : ClientRef × SessionTask) : Option Wire.Packet :=
  if duty.1 = c then duty.2.packet? else none

/-- The packets of a client that its session has still to take up, oldest first. -/
def pending (w : World) (c : ClientRef) : List Wire.Packet :=
  ((w.standing? c).map fun s => (w.duties s.queue).filterMap (packetFor c)).getD []

/-! ## Packets are taken up in the order in which they arrive -/

section Pending

theorem pending_of_standing {s : Standing} (known : w.standing? c = some s) :
    w.pending c = (w.duties s.queue).filterMap (packetFor c) := by
  rw [pending, known]
  rfl

theorem Steady.pending (h : Steady w v) (c : ClientRef) : v.pending c = w.pending c := by
  rw [World.pending, World.pending, standing?_eq_guest?, standing?_eq_guest?, h.guest?]
  simp only [h.duties]

/-- What is not for a client is none of its packets. -/
theorem filterMap_packetFor_of_ne {d : ClientRef} (other : d ≠ c) (tasks : List SessionTask) :
    (tasks.map (d, ·)).filterMap (packetFor c) = [] := by
  refine List.filterMap_eq_nil_iff.2 fun duty mem => ?_
  obtain ⟨t, -, rfl⟩ := List.mem_map.1 mem
  exact if_neg other

theorem filterMap_packetFor_self (task : Option SessionTask) :
    (task.toList.map (c, ·)).filterMap (packetFor c) =
      (task.bind SessionTask.packet?).toList := by
  cases task with
  | none => rfl
  | some t => cases h : t.packet? <;> simp [packetFor, h]

theorem Comes.pending {h : HallRef} (comes : Comes w h v)
    (placed : ∀ q c task, (c, task) ∈ w.duties q → ∃ s, w.standing? c = some s ∧ s.queue = q)
    (c : ClientRef) : v.pending c = w.pending c := by
  obtain ⟨s, -, guests⟩ := comes.guest?
  have standing := standing?_eq_guest? v c
  rw [guests] at standing
  split at standing
  · next new =>
      have missing : w.standing? c = none := by
        rw [new, standing?, client?_length]
        rfl
      rw [pending_of_standing standing, comes.duties, World.pending, missing]
      refine List.filterMap_eq_nil_iff.2 fun duty mem => if_neg ?_
      rintro rfl
      obtain ⟨s, known, -⟩ := placed _ duty.1 duty.2 mem
      rw [missing] at known
      contradiction
  · rw [← standing?_eq_guest?] at standing
    rw [World.pending, standing, World.pending]
    simp only [comes.duties]

theorem Lives.pending {d : ClientRef} {g : Guest} {hook : Hook} (lives : Lives w d g hook v)
    (c : ClientRef) :
    v.pending c = w.pending c ++
      if d = c then (hook.call?.bind SessionTask.packet?).toList else [] := by
  have same : v.standing? c = w.standing? c := by
    rw [standing?_eq_guest?, standing?_eq_guest?, lives.guest?]
    split
    · next own =>
        rw [own, lives.found]
        exact congrArg some (Guest.standing_after g hook)
    · rfl
  cases known : w.standing? c with
  | none =>
      have other : d ≠ c := by
        rintro rfl
        rw [standing?_eq_guest?, lives.found] at known
        contradiction
      rw [World.pending, same, known, World.pending, known, if_neg other]
      rfl
  | some s =>
      rw [pending_of_standing (same.trans known), pending_of_standing known, lives.duties]
      by_cases own : d = c
      · subst own
        rw [standing?_eq_guest?, lives.found] at known
        obtain rfl := Option.some.inj known
        rw [if_pos rfl, if_pos rfl, List.filterMap_append, filterMap_packetFor_self]
      · rw [if_neg own, List.append_nil]
        split
        · rw [List.filterMap_append, filterMap_packetFor_of_ne own, List.append_nil]
        · rfl

/-- No stage of a job but the first takes a packet in. -/
theorem Errand.packet?_of_next {task : SessionTask} {next : Option SessionTask}
    (errand : Errand w c client task u next) : next.bind SessionTask.packet? = none := by
  cases errand with
  | begin _ _ _ call murmurs begins => cases begins <;> rfl
  | arrive r room asked next after =>
      cases next with
      | none => rfl
      | some t =>
          obtain ⟨response, rfl⟩ := after t rfl
          rfl
  | _ => rfl

theorem Acts.pending {d : ClientRef} {task : SessionTask} {next : Option SessionTask}
    (acts : Acts w d client task next v) (c : ClientRef) :
    (if d = c then task.packet?.toList else []) ++ v.pending c = w.pending c := by
  obtain ⟨u, errand, -⟩ := acts.errand
  obtain ⟨seat, -, guests⟩ := acts.guest?
  have same : v.standing? c = w.standing? c := by
    rw [standing?_eq_guest?, standing?_eq_guest?, guests]
    split
    · next own =>
        rw [own, guest?_of_client acts.found]
        rfl
    · rfl
  have before : w.duties client.queue = (d, task) :: w.awaiting client.queue := by
    rw [duties_eq, acts.busy]
    rfl
  cases known : w.standing? c with
  | none =>
      have other : d ≠ c := by
        rintro rfl
        rw [standing?_of_client acts.found] at known
        contradiction
      rw [if_neg other, World.pending, same, known, World.pending, known]
      rfl
  | some s =>
      rw [pending_of_standing (same.trans known), pending_of_standing known, acts.duties]
      by_cases own : d = c
      · subst own
        obtain rfl := Option.some.inj ((standing?_of_client acts.found).symm.trans known)
        change _ ++ List.filterMap _ (if client.queue = client.queue then _ else _) =
          List.filterMap _ (w.duties client.queue)
        rw [if_pos rfl, if_pos rfl, before, List.filterMap_append, filterMap_packetFor_self,
          errand.packet?_of_next, List.filterMap_cons, packetFor, if_pos rfl]
        cases task.packet? <;> rfl
      · rw [if_neg own, List.nil_append]
        split
        · next here =>
            have skipped : packetFor c (d, task) = none := if_neg own
            rw [← here, before, List.filterMap_append, filterMap_packetFor_of_ne own,
              List.filterMap_cons, skipped]
            rfl
        · rfl

/-- A step of a drain takes up the oldest packet of its client, or none. -/
theorem Tended.pending_of_work (h : Tended past w) {q : Jobs.QueueRef} {i : Nat}
    (after : Jobs.Realm.advance? perform w q i = some v) (c : ClientRef) :
    (((w.takes? (.work q i)).filter (·.client = c)).map Taking.packet).toList ++ v.pending c =
      w.pending c := by
  rcases work_cases h.agreed.inOrder.furnished h.placed after with
    ⟨steady, other⟩ | ⟨d, client, task, next, phase, acts⟩
  · have idle : w.takes? (.work q i) = none := by
      rw [takes?]
      split
      · next phase => exact absurd phase (other _ _)
      · rfl
    rw [idle, steady.pending]
    rfl
  · rw [← acts.pending c, takes?, phase]
    dsimp only
    rw [acts.found, Option.bind_some]
    by_cases own : d = c
    · subst own
      cases task.packet? <;> simp [Option.filter]
    · cases task.packet? <;> simp [own, Option.filter]

theorem arrival?_eq_none (other : ∀ d p, e ≠ .packet d p) : e.arrival? c = none := by
  cases e with
  | packet d p => exact absurd rfl (other d p)
  | _ => rfl

/-- What arrives comes last. -/
theorem Visits.pending (h : Tended past w) (visits : Visits w v (w.hook? e)) (c : ClientRef) :
    v.pending c = w.pending c ++ (e.arrival? c).toList := by
  generalize step : w.hook? e = hook at visits
  cases visits with
  | steady same =>
      rw [arrival?_eq_none, same.pending]
      · exact (List.append_nil _).symm
      · rintro d p rfl
        contradiction
  | comes i comes =>
      rw [arrival?_eq_none, comes.pending h.placed]
      · exact (List.append_nil _).symm
      · rintro d p rfl
        contradiction
  | lives d g hook lives =>
      rw [lives.pending]
      congr 1
      cases e with
      | packet d' p =>
          obtain ⟨rfl, rfl⟩ := Prod.mk.inj (Option.some.inj step)
          rw [Event.arrival?]
          split
          · cases p <;> rfl
          · rfl
      | _ =>
          have none_called : hook.call?.bind SessionTask.packet? = none := by
            cases hook with
            | receive p =>
                have received := eq_of_hook? step rfl
                contradiction
            | _ => rfl
          rw [arrival?_eq_none (fun _ _ => Event.noConfusion), none_called, Option.toList_none,
            ite_self]

/-- Of the packets of a client the oldest is taken up, and what arrives comes last. -/
theorem Tended.pending (h : Tended past w) (after : w.after? e = some v) (c : ClientRef) :
    (((w.takes? e).filter (·.client = c)).map Taking.packet).toList ++ v.pending c =
      w.pending c ++ (e.arrival? c).toList := by
  by_cases works : ∃ q i, e = .work q i
  · obtain ⟨q, i, rfl⟩ := works
    rw [h.pending_of_work after c]
    exact (List.append_nil _).symm
  · have outer (q : Jobs.QueueRef) (i : Nat) : e ≠ .work q i := fun same => works ⟨q, i, same⟩
    have idle : w.takes? e = none := by
      cases e with
      | work q i => exact absurd rfl (outer q i)
      | _ => rfl
    rw [idle]
    exact Visits.pending h (visits_of_after? h.agreed.inOrder.furnished h.linked outer after) c

end Pending

/-! ## What is said is what was taken up -/

/-- A step performs nothing for rooms, and of what it pushes for them only this is said. -/
def Utters (w v : World) (speech? : RoomRef → Option RoomTask) : Prop :=
  ∃ deeds, Moves w deeds v ∧ ranIn deeds = [] ∧
    ∀ r, (tasksOf r (pushedIn deeds)).filter RoomTask.isSay = (speech? r).toList

section Utters

theorem Moves.utters (moves : Moves w [] v) : Utters w v fun _ => none :=
  ⟨[], moves, rfl, fun _ => rfl⟩

theorem Moves.utters_push {r : RoomRef} {task : RoomTask} (moves : Moves w [.push r task] v)
    (silent : task.isSay = false) : Utters w v fun _ => none := by
  refine ⟨_, moves, rfl, fun k => ?_⟩
  change (tasksOf k [(r, task)]).filter _ = []
  rw [tasksOf_cons]
  split
  · exact List.filter_cons_of_neg (by simp [silent])
  · rfl

theorem Utters.then_quiet {speech? : RoomRef → Option RoomTask} (h : Utters w v speech?)
    (quiet : Quiet v u) : Utters w u speech? := by
  obtain ⟨deeds, moves, none_run, said⟩ := h
  exact ⟨deeds, moves.then_quiet quiet, none_run, said⟩

theorem utters_join (w : World) (c : ClientRef) (room : String) (asked : Bool) :
    Utters w (w.join c room asked).1 fun _ => none := by
  rw [join]
  cases current : w.currentRoom? c with
  | none => exact (Moves.refl w).utters
  | some here =>
      obtain ⟨r, now⟩ := here
      have announced : Utters w (w.pushToRoom r .announce) fun _ => none :=
        (moves_pushToRoom (room?_of_currentRoom? current) rfl RoomTask.noConfusion).utters_push rfl
      dsimp only
      split
      · split <;> exact announced
      · exact (Moves.refl w).utters

section Taken

variable {t : Taking} (seat : t.seat = client.room) (playerId : t.playerId = client.sessionId)
include seat playerId

/-- The current room is asked to say a message, or the message is refused. -/
theorem utters_chat (found : w.client? c = some client)
    (there : ∀ r, client.room = some r → (w.room? r).isSome) {message : String}
    (said : messageOf? t.packet = some message) :
    (∃ v, w.chat c client message = .ok v ∧ Utters w v t.speech?) ∨
      (∃ e, w.chat c client message = .error e) ∧ t.speech? = fun _ => none := by
  rw [chat]
  cases valid : Chat.validateMessage message with
  | error e =>
      have refused : utterance? t.packet = none := by
        rw [utterance?, said, Option.filter_some, valid]
        rfl
      refine .inr ⟨⟨e, rfl⟩, funext fun r => ?_⟩
      rw [Taking.speech?, refused, Option.map_none, ite_self]
  | ok =>
      have passed : utterance? t.packet = some message := by
        rw [utterance?, said, Option.filter_some, valid]
        rfl
      cases seated : client.room with
      | none =>
          have nowhere : w.currentRoom? c = none := by
            simp only [currentRoom?, found, Option.bind_eq_bind, Option.bind_some, seated,
              Option.bind_none]
          refine .inr ⟨⟨.notInRoom client.sessionId, ?_⟩, funext fun r => ?_⟩
          · rw [nowhere]
            rfl
          · rw [Taking.speech?, seat, seated]
            exact if_neg (Option.some_ne_none r).symm
      | some r =>
          obtain ⟨room, hroom⟩ := Option.isSome_iff_exists.1 (there r seated)
          have current : w.currentRoom? c = some (r, room) := by
            simp only [currentRoom?, found, Option.bind_eq_bind, Option.bind_some, seated, hroom]
          refine .inl ⟨w.pushToRoom r (.say client.sessionId message), ?_, [.push r _],
            moves_pushToRoom hroom rfl RoomTask.noConfusion, rfl, fun k => ?_⟩
          · rw [current]
            rfl
          · change (tasksOf k [(r, _)]).filter _ = _
            rw [Taking.speech?, seat, seated, passed, playerId, tasksOf_cons]
            by_cases here : r = k <;> simp [here, RoomTask.isSay]

theorem utters_takePacket (found : w.client? c = some client)
    (there : ∀ r, client.room = some r → (w.room? r).isSome) {id : UInt16} {payload : Bytes}
    (taken : t.packet = .binary id payload) :
    Utters w (w.takePacket c client id payload).1 t.speech? := by
  have refused (nothing : messageOf? t.packet = none) : Utters w w t.speech? := by
    have silent : t.speech? = fun _ => none := by
      funext r
      rw [Taking.speech?, utterance?, nothing]
      exact ite_self _
    exact silent ▸ (Moves.refl w).utters
  rw [takePacket]
  rw [taken, messageOf?] at refused
  cases known : Chat.PacketKind.ofId id with
  | error e =>
      rw [known] at refused
      exact refused rfl
  | ok kind =>
      rw [known] at refused
      cases kind with
      | broadcast => exact refused rfl
      | roomUpdate => exact refused rfl
      | utterance =>
          cases decoded : Chat.Utterance.decode Chat.PacketKind.utterance.id payload with
          | error e =>
              dsimp only at refused
              rw [decoded] at refused
              exact refused rfl
          | ok utterance =>
              have said : messageOf? t.packet = some utterance.message := by
                rw [taken, messageOf?, known]
                dsimp only
                rw [decoded]
              rcases utters_chat seat playerId found there said with
                ⟨v, spoken, utters⟩ | ⟨⟨e, failed⟩, silent⟩
              · simp only [bind, Except.bind, spoken]
                exact utters
              · simp only [bind, Except.bind, failed]
                exact silent ▸ (Moves.refl w).utters

theorem utters_takeCommand (found : w.client? c = some client)
    (there : ∀ r, client.room = some r → (w.room? r).isSome) {text : String}
    (taken : t.packet = .json text) : Utters w (w.takeCommand c client text).1 t.speech? := by
  have refused {v : World} (nothing : messageOf? t.packet = none)
      (utters : Utters w v fun _ => none) : Utters w v t.speech? := by
    have silent : t.speech? = fun _ => none := by
      funext r
      rw [Taking.speech?, utterance?, nothing]
      exact ite_self _
    exact silent ▸ utters
  have rejected (e : Chat.Error) : Utters w (w.reject c e).1 fun _ => none :=
    (calm_reject w c e).quiet.moves.utters
  rw [takeCommand]
  cases decoded : Chat.Command.decode text with
  | error e =>
      refine refused ?_ (rejected e)
      rw [taken, messageOf?, decoded]
  | ok command =>
      cases command with
      | joinRoom room =>
          refine refused ?_ (utters_join w c room true)
          rw [taken, messageOf?, decoded]
      | leaveRoom room =>
          refine refused ?_ ?_
          · rw [taken, messageOf?, decoded]
          · dsimp only
            split
            · exact rejected _
            · exact (Moves.refl w).utters
      | sendMessage message =>
          have said : messageOf? t.packet = some message := by rw [taken, messageOf?, decoded]
          rcases utters_chat seat playerId found there said with
            ⟨v, spoken, utters⟩ | ⟨⟨e, failed⟩, silent⟩
          · simp only [spoken]
            exact utters
          · simp only [failed]
            exact silent ▸ rejected e

end Taken

theorem utters_leaving (w : World) (c : ClientRef) (client : Client) (n : Next) :
    Utters w (w.performSessionTask c client (.leaving n)).1 fun _ => none := by
  rw [performSessionTask]
  cases seated : client.room with
  | none => exact (Moves.refl w).utters
  | some r =>
      have quiet := quiet_modifyClient w c (f := fun client => { client with room := none })
        fun _ => rfl
      dsimp only [goOn]
      generalize (w.modifyClient c fun client => { client with room := none }) = v at quiet ⊢
      cases there : v.room? r with
      | none =>
          rw [pushLeave, pushToRoom, there]
          exact quiet.moves.utters
      | some room =>
          exact (quiet.moves.trans (moves_pushLeave there client.sessionId)).utters_push rfl

theorem utters_go (furnished : Furnished w) (found : w.client? c = some client) (n : Next) :
    Utters w (w.go c client n).1 fun _ => none := by
  rw [go.eq_def]
  cases n with
  | enter room asked =>
      have standing := standing?_of_client found
      obtain ⟨register, known, -⟩ := furnished.hallOfClient c _ standing
      exact (moves_enterRoom (Option.isSome_of_eq_some known)
        (Option.isSome_of_eq_some standing) room).utters_push rfl
  | answer response => exact (calm_answer w c response).quiet.moves.utters
  | retire => exact (Move.unname w client.sessionId).moves.utters

/-- A stage of a job makes a room say what the packet that it takes in says, if it takes one in,
and nothing else. -/
theorem utters_performSessionTask (furnished : Furnished w) (found : w.client? c = some client)
    (task : SessionTask)
    (there : task.packet?.isSome → ∀ r, client.room = some r → (w.room? r).isSome) :
    Utters w (w.performSessionTask c client task).1 fun r =>
      (task.packet?.map (Taking.mk c client.sessionId client.room)).bind (·.speech? r) := by
  cases task with
  | welcome =>
      rw [performSessionTask]
      split
      · exact utters_join w c _ false
      · exact (Moves.refl w).utters
  | packet id payload => exact utters_takePacket rfl rfl found (there rfl) rfl
  | command text => exact utters_takeCommand rfl rfl found (there rfl) rfl
  | farewell => exact (Moves.refl w).utters
  | leaving n => exact utters_leaving w c client n
  | tidying r n =>
      rcases moves_pushTidy_cases w r with moves | moves
      · exact moves.utters
      · exact moves.utters_push rfl
  | going n => exact utters_go furnished found n
  | arriving r name asked =>
      have quiet := quiet_modifyClient w c (f := fun client => { client with room := some r })
        fun _ => rfl
      rw [performSessionTask]
      split <;> exact quiet.moves.utters

end Utters

/-- Whoever takes a packet up sits in a room of its own hall, if in any. -/
theorem Tended.of_takes? (h : Tended past w) {t : Taking} (takes : w.takes? e = some t) :
    ∃ client, w.client? t.client = some client ∧ t.playerId = client.sessionId ∧
      t.seat = client.room ∧
      ∀ r, client.room = some r → ∃ room, w.room? r = some room ∧ room.hall = client.hall := by
  cases e with
  | work q i =>
      rw [takes?] at takes
      split at takes
      · next c task phase =>
          obtain ⟨client, found, packet⟩ := Option.bind_eq_some_iff.1 takes
          obtain ⟨p, takes_in, rfl⟩ := Option.map_eq_some_iff.1 packet
          refine ⟨client, found, rfl, rfl, fun r seated => ?_⟩
          obtain ⟨seats, sits, attends⟩ := h.agreed.seats
          obtain ⟨queue, known, alive⟩ := phase?_eq_some.1 phase
          have busy := performing_of_alive h.agreed.inOrder.furnished.serial known alive
          have nowhere : task.destination? = none := by
            cases task with
            | arriving r name asked => contradiction
            | _ => rfl
          have here := attends.seat_of_busy (standing?_of_client found) busy nowhere
          have seat : w.seat? c = some r := by
            rw [seat?, found]
            exact seated
          obtain ⟨s, room, standing, there, hall⟩ := sits.seat c r (here.trans seat)
          obtain rfl := Option.some.inj ((standing?_of_client found).symm.trans standing)
          exact ⟨room, there, hall⟩
      · contradiction
  | _ => contradiction

/-- Whoever took the packet up is a client, and the room is one of its hall. -/
def Sits (w : World) (t : Taking) (r : RoomRef) : Prop :=
  ∃ s room, w.standing? t.client = some s ∧ s.sessionId = t.playerId ∧ w.room? r = some room ∧
    room.hall = s.hall

theorem Sits.extends {t : Taking} {r : RoomRef} (h : w.Sits t r) (ext : Extends w v) :
    v.Sits t r := by
  obtain ⟨s, room, standing, own, there, hall⟩ := h
  obtain ⟨now, found, same, -⟩ := ext.room r room there
  exact ⟨s, now, ext.standing _ s standing, own, found, same.trans hall⟩

theorem Tended.sits (h : Tended past w) {t : Taking} (takes : w.takes? e = some t) {r : RoomRef}
    (here : t.seat = some r) : w.Sits t r := by
  obtain ⟨client, found, own, seat, sits⟩ := h.of_takes? takes
  obtain ⟨room, there, hall⟩ := sits r (seat.symm.trans here)
  exact ⟨_, room, standing?_of_client found, own.symm, there, hall⟩

/-- What an event comes down to, with all that is said. -/
def Voices (w : World) (e : Event) (v : World) : Prop :=
  ∃ deeds, Moves w deeds v ∧ ranIn deeds = (w.performs? e).toList ∧
    ∀ r, (tasksOf r (pushedIn deeds)).filter RoomTask.isSay =
      ((w.takes? e).bind (·.speech? r)).toList

theorem Change.voices {deeds : List Deed} (change : Change w e v deeds)
    (silent : ∀ task ∈ pushedIn deeds, task.2.isSay = false) (idle : w.takes? e = none) :
    Voices w e v := by
  refine ⟨deeds, change.moves, change.ran, fun r => ?_⟩
  rw [idle]
  refine List.filter_eq_nil_iff.2 fun task mem => ?_
  rw [silent _ (mem_tasksOf.1 mem)]
  exact Bool.false_ne_true

theorem voices_work (h : Tended past w) {q : Jobs.QueueRef} {i : Nat}
    (after : Jobs.Realm.advance? perform w q i = some v) : Voices w (.work q i) v := by
  have furnished := h.agreed.inOrder.furnished
  have nothing {deeds : List Deed} (none_pushed : pushedIn deeds = []) :
      ∀ task ∈ pushedIn deeds, task.2.isSay = false := by
    rw [none_pushed]
    exact fun _ => List.not_mem_nil.elim
  rcases advance?_cases after with ⟨phase, rfl⟩ | ⟨phase, rfl⟩ | ⟨job, phase⟩
  all_goals obtain ⟨queue, found, alive⟩ := phase?_eq_some.1 phase
  · refine (change_fetch furnished.serial found alive).voices (nothing rfl) ?_
    rw [takes?, phase]
  · refine (change_recheck furnished.serial found alive).voices (nothing rfl) ?_
    rw [takes?, phase]
  · cases job with
    | room r task =>
        refine (change_room furnished.serial found alive after).voices (nothing rfl) ?_
        rw [takes?, phase]
    | hold gate =>
        refine (change_hold furnished.serial found alive after).voices (nothing rfl) ?_
        rw [takes?, phase]
    | session c task =>
        obtain ⟨client, known, -⟩ :=
          client_of_executing furnished.serial h.placed found alive
        have takes : w.takes? (.work q i) =
            task.packet?.map (Taking.mk c client.sessionId client.room) := by
          rw [takes?, phase]
          dsimp only
          rw [known, Option.bind_some]
        have there (takes_in : task.packet?.isSome) (r : RoomRef)
            (seated : client.room = some r) : (w.room? r).isSome := by
          obtain ⟨p, packet⟩ := Option.isSome_iff_exists.1 takes_in
          rw [packet] at takes
          obtain ⟨again, hagain, -, -, sits⟩ := h.of_takes? takes
          obtain rfl := Option.some.inj (known.symm.trans hagain)
          obtain ⟨room, hroom, -⟩ := sits r seated
          exact Option.isSome_of_eq_some hroom
        have utters := utters_performSessionTask furnished known task there
        obtain ⟨next, -, follows⟩ := errand_performSessionTask w c client task
        have resumes := resumes_of_work furnished found alive known follows after
        obtain ⟨deeds, moves, none_run, said⟩ := utters.then_quiet resumes.quiet
        refine ⟨deeds, moves, ?_, fun r => ?_⟩
        · rw [none_run, performs?, phase]
          rfl
        · rw [takes, said]

/-- What is said in a room is what the packets say that are taken up there. -/
theorem Tended.voices (h : Tended past w) (indirect : e.isDirect = false)
    (after : w.after? e = some v) : Voices w e v := by
  have furnished := h.agreed.inOrder.furnished
  have nothing : ∀ task ∈ pushedIn [], task.2.isSay = false := fun _ => List.not_mem_nil.elim
  cases e with
  | openHall defaultRoom =>
      obtain rfl := Option.some.inj after
      exact (change_openHall w defaultRoom).voices nothing rfl
  | room i name =>
      simp only [after?, Option.ite_none_right_eq_some, Option.some.injEq] at after
      obtain ⟨below, rfl⟩ := after
      exact ⟨[], moves_getOrCreateRoom (register?_isSome_of_lt below) name, rfl, fun _ => rfl⟩
  | enterRoom => contradiction
  | leaveRoom => contradiction
  | tidyRoom r =>
      simp only [after?, Option.ite_none_right_eq_some, Option.some.injEq] at after
      obtain ⟨below, rfl⟩ := after
      have utters : Utters w (w.pushTidy r) fun _ => none := by
        rcases moves_pushTidy_cases w r with moves | moves
        · exact moves.utters
        · exact moves.utters_push rfl
      exact utters
  | accept h => exact (change_accept after).voices nothing rfl
  | start h works => exact (change_start after).voices nothing rfl
  | arrive c => exact (change_arrive furnished after).voices nothing rfl
  | packet c p =>
      simp only [after?, Option.ite_none_right_eq_some, Option.any_eq_true, Option.some.injEq]
        at after
      obtain ⟨⟨client, found, -⟩, rfl⟩ := after
      exact (change_packet furnished found p).voices nothing rfl
  | depart c => exact (change_depart furnished after).voices nothing rfl
  | release c =>
      simp only [after?, Option.ite_none_right_eq_some, Option.some.injEq] at after
      obtain ⟨-, rfl⟩ := after
      have calm : Calm w (w.release c) :=
        calm_modifyClient w c (fun _ => by split <;> rfl) fun _ => by split <;> rfl
      exact (calm.change rfl).voices nothing rfl
  | work q i => exact voices_work h after
  | stop h =>
      simp only [after?, Option.ite_none_right_eq_some, Option.some.injEq] at after
      obtain ⟨-, rfl⟩ := after
      have calm : Calm w (w.stopAccepting h) := calm_modifyHall w h fun _ => rfl
      exact (calm.change rfl).voices nothing rfl
  | lookAround h =>
      simp only [after?, Option.ite_none_right_eq_some, Option.some.injEq] at after
      obtain ⟨-, rfl⟩ := after
      have calm : Calm w (w.lookAround h) := calm_modifyHall w h fun _ => rfl
      exact (calm.change rfl).voices nothing rfl
  | dismiss h => exact (change_dismiss after).voices nothing rfl

/-- The sayings in the history of a room become more by what a packet says that is taken up
there. -/
theorem Tended.speech (h : Tended past w) (indirect : e.isDirect = false)
    (after : w.after? e = some v) (r : RoomRef) :
    (history (past ++ (w.performs? e).toList) v r).filter RoomTask.isSay =
      (history past w r).filter RoomTask.isSay ++
        ((w.takes? e).bind (·.speech? r)).toList := by
  obtain ⟨deeds, moves, ran, said⟩ := h.voices indirect after
  rw [← ran, moves.history h.agreed.inOrder, List.filter_append, said]

end World

end ChatHall.Server
