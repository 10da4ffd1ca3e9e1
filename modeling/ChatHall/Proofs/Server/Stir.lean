/-
# What an event does for the guests

Every event is a step in the life of one client, brings a client, lets a job of a
session act, or goes unnoticed by all guests. This is the other side of the turns:
a turn tells what becomes of the jobs and the seats, a stir also what becomes of
the hooks, the sessions and the names.
-/

import ChatHall.Proofs.Server.Hook

namespace ChatHall.Server.World

variable {w v u : World}

/-- A client comes to a hall that accepts connections. -/
structure Comes (w : World) (h : HallRef) (v : World) : Prop where
  accepting : ∃ d, w.door? h = some d ∧ d.accepting = true
  guest? : ∃ s : Standing, s.hall = h ∧ ∀ d, v.guest? d =
    if d = w.state.clients.length then some ⟨s, .none, .unnoticed, .unnoticed, none⟩
    else w.guest? d
  inHand? : ∀ k d, v.inHand? k = some d →
    w.inHand? k = some d ∨ k = h ∧ d = w.state.clients.length
  session? : ∀ k sessionId, v.session? k sessionId = w.session? k sessionId
  named : ∀ k, v.pool.find? (sessionQueueName k) = w.pool.find? (sessionQueueName k)
  duties : ∀ q, v.duties q = w.duties q

/-- A job of a client acts. -/
structure Acts (w : World) (c : ClientRef) (client : Client) (task : SessionTask)
    (next : Option SessionTask) (v : World) : Prop where
  found : w.client? c = some client
  busy : w.performing client.queue = [(c, task)]
  errand : ∃ u, Errand w c client task u next ∧ Quiet u v
  guest? : ∃ seat, Errand.Seat task client.room seat ∧
    ∀ d, v.guest? d = if d = c then some { client.guest with room := seat } else w.guest? d
  inHand? : ∀ h d, v.inHand? h = some d → w.inHand? h = some d
  session? : ∀ h k, v.session? h k = w.session? h k
  named : ∀ k, v.pool.find? (sessionQueueName k) =
    if task = .going .retire ∧ sessionQueueName k = sessionQueueName client.sessionId then none
    else w.pool.find? (sessionQueueName k)
  duties : ∀ q, v.duties q =
    if client.queue = q then next.toList.map (c, ·) ++ w.awaiting q else w.duties q

/-- What an event does, which is a step in the life of a client or none. -/
inductive Stir (w v : World) : Option (ClientRef × Hook) → Prop
  | steady (same : Steady w v) : Stir w v none
  | comes (h : HallRef) (comes : Comes w h v) : Stir w v none
  | lives (c : ClientRef) (g : Guest) (hook : Hook) (lives : Lives w c g hook v) :
      Stir w v (some (c, hook))
  | acts (c : ClientRef) (client : Client) (task : SessionTask) (next : Option SessionTask)
      (acts : Acts w c client task next v) : Stir w v none

/-- What an event does that is no step of a drain. -/
inductive Visits (w v : World) : Option (ClientRef × Hook) → Prop
  | steady (same : Steady w v) : Visits w v none
  | comes (h : HallRef) (comes : Comes w h v) : Visits w v none
  | lives (c : ClientRef) (g : Guest) (hook : Hook) (lives : Lives w c g hook v) :
      Visits w v (some (c, hook))

theorem Visits.stir {hook : Option (ClientRef × Hook)} (h : Visits w v hook) : Stir w v hook := by
  cases h with
  | steady same => exact .steady same
  | comes h comes => exact .comes h comes
  | lives c g hook lives => exact .lives c g hook lives

/-! ## What becomes of the guests and of what is to be done -/

section Parts

variable {c d : ClientRef} {g g' : Guest} {q : Jobs.QueueRef} {t : SessionTask}

theorem Comes.guest?_of_some {h : HallRef} (comes : Comes w h v) (found : w.guest? d = some g) :
    v.guest? d = some g := by
  obtain ⟨s, -, guests⟩ := comes.guest?
  rw [guests, if_neg]
  · exact found
  · intro new
    rw [new, World.guest?, client?_length] at found
    contradiction

section Lives

variable {hook : Hook}

theorem Lives.duty_before (h : Lives w c g hook v) (duty : (d, t) ∈ v.duties q) :
    (d, t) ∈ w.duties q ∨ d = c ∧ t ∈ hook.call? := by
  rw [h.duties] at duty
  split at duty
  · rcases List.mem_append.1 duty with before | called
    · exact .inl before
    · obtain ⟨t', ht, same⟩ := List.mem_map.1 called
      obtain ⟨rfl, rfl⟩ := Prod.mk.inj same
      exact .inr ⟨rfl, Option.mem_toList.1 ht⟩
  · exact .inl duty

theorem Lives.duty_after (h : Lives w c g hook v) (duty : (d, t) ∈ w.duties q) :
    (d, t) ∈ v.duties q := by
  rw [h.duties]
  split
  · exact List.mem_append_left _ duty
  · exact duty

end Lives

section Acts

variable {client : Client} {task : SessionTask} {next : Option SessionTask}

theorem Acts.job (h : Acts w c client task next v) : (c, task) ∈ w.duties client.queue := by
  rw [duties_eq, h.busy]
  exact List.mem_cons_self

/-- Nothing but a seat changes. -/
theorem Acts.guest?_of_some (h : Acts w c client task next v) (found : w.guest? d = some g) :
    ∃ room, v.guest? d = some { g with room } := by
  obtain ⟨seat, -, guests⟩ := h.guest?
  rw [guests]
  split
  · next own =>
      obtain rfl := Option.some.inj ((guest?_of_client h.found).symm.trans (own ▸ found))
      exact ⟨seat, rfl⟩
  · exact ⟨g.room, found⟩

/-- A job that acts is the only one that is not left as it is. -/
theorem Acts.duty_after (h : Acts w c client task next v) (duty : (d, t) ∈ w.duties q) :
    (d, t) ∈ v.duties q ∨ d = c ∧ t = task := by
  rw [h.duties]
  split
  · next here =>
      rw [duties_eq, ← here, h.busy] at duty
      rcases List.mem_cons.1 duty with first | waits
      · exact .inr (Prod.mk.inj first)
      · rw [here] at waits
        exact .inl (List.mem_append_right _ waits)
  · exact .inl duty

theorem Acts.duty_next (h : Acts w c client task next v) (follows : t ∈ next) :
    (c, t) ∈ v.duties client.queue := by
  rw [h.duties, if_pos rfl]
  exact List.mem_append_left _ (List.mem_map_of_mem (Option.mem_toList.2 follows))

/-- A job leaves the seats of the other clients alone. -/
theorem Acts.seat? (h : Acts w c client task next v) :
    ∃ seat, Errand.Seat task client.room seat ∧
      ∀ d, v.seat? d = if d = c then seat else w.seat? d := by
  obtain ⟨seat, sits, guests⟩ := h.guest?
  refine ⟨seat, sits, fun d => ?_⟩
  rw [seat?_eq, seat?_eq, guests]
  split <;> rfl

theorem Acts.duty_before (h : Acts w c client task next v) (duty : (d, t) ∈ v.duties q)
    (other : d ≠ c) : (d, t) ∈ w.duties q := by
  rw [h.duties] at duty
  split at duty
  · rcases List.mem_append.1 duty with follows | waits
    · obtain ⟨_, -, same⟩ := List.mem_map.1 follows
      exact absurd (Prod.mk.inj same).1.symm other
    · rw [duties_eq]
      exact List.mem_append_right _ waits
  · exact duty

end Acts

/-- What a guest was before an event: it has come, at most its seat has changed, or it has taken
the step that the event is. -/
inductive Stems (w : World) (hook : Option (ClientRef × Hook)) (c : ClientRef) : Guest → Prop
  | new (s : Standing) (absent : w.guest? c = none) :
      Stems w hook c ⟨s, .none, .unnoticed, .unnoticed, none⟩
  | kept (g : Guest) (room : Option RoomRef) (before : w.guest? c = some g) :
      Stems w hook c { g with room }
  | stepped (g : Guest) (step : Hook) (before : w.guest? c = some g) (fits : g.fits step = true)
      (own : hook = some (c, step)) : Stems w hook c (g.after step)

theorem Stir.stems {hook : Option (ClientRef × Hook)} (stir : Stir w v hook)
    (found : v.guest? c = some g) : Stems w hook c g := by
  cases stir with
  | steady same => exact .kept g g.room ((same.guest? c).symm.trans found)
  | comes h comes =>
      obtain ⟨s, -, guests⟩ := comes.guest?
      rw [guests] at found
      split at found
      · next new =>
          obtain rfl := Option.some.inj found
          refine .new s ?_
          rw [new, World.guest?, client?_length]
          rfl
      · exact .kept g g.room found
  | lives d g' step lives =>
      rw [lives.guest?] at found
      split at found
      · next own =>
          subst own
          obtain rfl := Option.some.inj found
          exact .stepped g' step lives.found lives.fits rfl
      · exact .kept g g.room found
  | acts d client task next acts =>
      obtain ⟨seat, -, guests⟩ := acts.guest?
      rw [guests] at found
      split at found
      · next own =>
          obtain rfl := Option.some.inj found
          exact .kept client.guest seat (own ▸ guest?_of_client acts.found)
      · exact .kept g g.room found

end Parts

/-- An event of which no job of a session is the cause changes no seat and takes no duty away. -/
theorem Stir.keeps {hook : Option (ClientRef × Hook)} (stir : Stir w v hook) :
    ((∀ c, v.seat? c = w.seat? c) ∧
      ∀ q, v.duties q = w.duties q ∨ ∃ c task, SessionTask.isCall task = true ∧
        v.duties q = w.duties q ++ [(c, task)]) ∨
      ∃ c client task next, Acts w c client task next v := by
  cases stir with
  | steady same =>
      refine .inl ⟨fun c => ?_, fun q => .inl (same.duties q)⟩
      rw [seat?_eq, seat?_eq, same.guest?]
  | comes i comes =>
      obtain ⟨s, -, guests⟩ := comes.guest?
      refine .inl ⟨fun c => ?_, fun q => .inl (comes.duties q)⟩
      rw [seat?_eq, seat?_eq, guests]
      split
      · next new =>
          rw [new, guest?, client?_length]
          rfl
      · rfl
  | lives d g hook lives =>
      refine .inl ⟨fun c => ?_, fun q => ?_⟩
      · rw [seat?_eq, seat?_eq, lives.guest?]
        split
        · next own =>
            rw [own, lives.found, Option.bind_some, Option.bind_some, Guest.room_after]
        · rfl
      · rw [lives.duties]
        split
        · cases calls : hook.call? with
          | none => exact .inl (List.append_nil _)
          | some task =>
              refine .inr ⟨d, task, ?_, rfl⟩
              cases hook with
              | receive p => cases p <;> exact Option.some.inj calls ▸ rfl
              | greet => exact Option.some.inj calls ▸ rfl
              | seeOff => exact Option.some.inj calls ▸ rfl
              | _ => contradiction
        · exact .inl rfl
  | acts c client task next acts => exact .inr ⟨c, client, task, next, acts⟩

theorem Linked.connected_stir (h : Linked w) {hook : Option (ClientRef × Hook)}
    (stir : Stir w v hook) {c : ClientRef} {g : Guest} (found : v.guest? c = some g)
    (connected : g.link = .connected) : g.departure = .unnoticed := by
  cases stir.stems found with
  | new => rfl
  | kept g room before => exact h.connected c g before connected
  | stepped g step before fits =>
      exact Guest.connected_after fits (h.connected c g before) connected

theorem Linked.stir (h : Linked w) {hook : Option (ClientRef × Hook)} (stir : Stir w v hook) :
    Linked v := by
  refine ⟨fun c g found => h.connected_stir stir found, fun k c held => ?_⟩
  cases stir with
  | steady same =>
      rw [same.guest?]
      exact h.inHand k c (same.inHand? k c held)
  | comes i comes =>
      obtain ⟨s, hall, guests⟩ := comes.guest?
      rcases comes.inHand? k c held with before | ⟨rfl, new⟩
      · obtain ⟨g, found, rest⟩ := h.inHand k c before
        exact ⟨g, comes.guest?_of_some found, rest⟩
      · rw [guests, if_pos new]
        exact ⟨_, rfl, hall, rfl, rfl⟩
  | lives d g hook lives =>
      obtain ⟨before, other⟩ := lives.inHand? k c held
      obtain ⟨g', found, hall, unlinked, unnoticed⟩ := h.inHand k c before
      rw [lives.guest?]
      split
      · next same =>
          subst same
          obtain rfl := Option.some.inj (lives.found.symm.trans found)
          refine ⟨_, rfl, by rw [Guest.standing_after, hall], ?_⟩
          exact Guest.unlinked_after lives.fits (fun start => other start rfl) unlinked unnoticed
      · exact ⟨g', found, hall, unlinked, unnoticed⟩
  | acts d client task next acts =>
      obtain ⟨g, found, rest⟩ := h.inHand k c (acts.inHand? k c held)
      obtain ⟨room, there⟩ := acts.guest?_of_some found
      exact ⟨_, there, rest⟩

/-! ## Steps of a drain -/

section Drain

variable {q : Jobs.QueueRef} {i : Nat} {job : Job} {queue : Jobs.Queue Job}

theorem steady_of_eq (state : v.state = w.state) (pool : v.pool = w.pool) : Steady w v where
  guest? c := by rw [guest?, client?, state, guest?, client?]
  inHand? h c held := by
    rw [inHand?, hall?, state] at held
    exact held
  session? h k := by rw [session?, hall?, state, session?, hall?]
  named k := by rw [pool]
  duties q := by rw [duties, pool, duties]

/-- A step of a queue that does nothing for a session. -/
theorem steady_modify (w : World) (q : Jobs.QueueRef) {f : Jobs.Queue Job → Jobs.Queue Job}
    (keeps : ∀ queue, w.pool.queue? q = some queue →
      (f queue).outstanding.filterMap Job.sessionTask? =
        queue.outstanding.filterMap Job.sessionTask?) :
    Steady w (w.updatePool (·.modify q f)) where
  guest? _ := rfl
  inHand? _ _ := id
  session? _ _ := rfl
  named _ := rfl
  duties k := by
    rw [duties, duties, Jobs.Realm.updatePool, Jobs.Pool.queue?_modify]
    split
    · next same =>
        subst same
        cases found : w.pool.queue? q with
        | none => rfl
        | some queue => exact keeps queue found
    · rfl

/-- The end of a job that is none of a session. -/
theorem steady_finish (serial : w.pool.Serial) (found : w.pool.queue? q = some queue)
    (alive : queue.drains[i]? = some (.executing job)) (other : job.sessionTask? = none)
    (outcome : Except Jobs.Failure Unit) :
    Steady w (w.updatePool (·.modify q (·.finish i outcome))) := by
  refine steady_modify w q fun _ same => ?_
  obtain rfl := Option.some.inj (found.symm.trans same)
  rw [(serial q queue found).outstanding_finish alive outcome, List.filterMap_cons, other]

theorem steady_room (serial : w.pool.Serial) (found : w.pool.queue? q = some queue) {r : RoomRef}
    {task : RoomTask} (alive : queue.drains[i]? = some (.executing (.room r task)))
    (after : Jobs.Realm.advance? perform w q i = some v) : Steady w v := by
  obtain ⟨state, pool⟩ := eq_of_finished (phase?_eq_some.2 ⟨queue, found, alive⟩) rfl after
  have known := (queue?_performRoomTask w r task q).trans found
  have served : (w.performRoomTask r task).pool.Serial := by
    intro k other hother
    rw [queue?_performRoomTask] at hother
    exact serial k other hother
  have finished := steady_finish served known alive rfl (.ok ())
  exact ((steady_performRoomTask w r task).trans finished).trans (steady_of_eq state pool)

/-- A job that waits for a gate goes through it if it is open, and takes no step otherwise. -/
theorem eq_of_hold {gate : String}
    (phase : Jobs.Realm.phase? w q i = some (.executing (.hold gate)))
    (after : Jobs.Realm.advance? perform w q i = some v) :
    v.state = w.state.passGate gate ∧
      v.pool = (w.updatePool (·.modify q (·.finish i (.ok ())))).pool := by
  by_cases isOpen : gate ∈ w.state.gates
  · have passes : perform q (.hold gate) w =
        (w.updateState (·.passGate gate), .finished (.ok ())) := by
      rw [perform]
      exact if_pos isOpen
    exact eq_of_finished phase passes after
  · have blocked : perform q (.hold gate) w = (w, .blocked) := by
      rw [perform]
      exact if_neg isOpen
    rw [Jobs.Realm.advance?, phase] at after
    simp only [blocked] at after
    contradiction

theorem steady_hold (serial : w.pool.Serial) (found : w.pool.queue? q = some queue) {gate : String}
    (alive : queue.drains[i]? = some (.executing (.hold gate)))
    (after : Jobs.Realm.advance? perform w q i = some v) : Steady w v := by
  obtain ⟨state, pool⟩ := eq_of_hold (phase?_eq_some.2 ⟨queue, found, alive⟩) after
  have passed : Steady w (w.updateState (·.passGate gate)) :=
    ⟨fun _ => rfl, fun _ _ => id, fun _ _ => rfl, fun _ => rfl, fun _ => rfl⟩
  have finished := steady_finish (w := w.updateState (·.passGate gate)) serial found alive rfl
    (.ok ())
  exact (passed.trans finished).trans (steady_of_eq state pool)

/-- The duties once the job of a session has come to its end or into its next stage. -/
theorem duties_of_act {c : ClientRef} {seat : Option RoomRef} {next : Option SessionTask}
    (reseats : Reseats w c seat u) (performing : ∀ k, v.performing k =
      if q = k then next.toList.map (c, ·) else u.performing k)
    (awaiting : ∀ k, v.awaiting k = u.awaiting k) (k : Jobs.QueueRef) :
    v.duties k = if q = k then next.toList.map (c, ·) ++ w.awaiting k else w.duties k := by
  have same : u.performing k = w.performing k := by
    rw [World.performing, reseats.executing, World.performing]
  rw [duties_eq, performing, awaiting, reseats.awaiting, duties_eq, same]
  split <;> rfl

/-- A job of a session acts, and its queue keeps it or lets it go. -/
theorem acts_of_work (furnished : Furnished w) (found : w.pool.queue? q = some queue)
    {c : ClientRef} {client : Client} {task : SessionTask}
    (alive : queue.drains[i]? = some (.executing (.session c task)))
    (known : w.client? c = some client) (own : client.queue = q)
    (after : Jobs.Realm.advance? perform w q i = some v) : ∃ next, Acts w c client task next v := by
  obtain ⟨next, errand, follows⟩ := errand_performSessionTask w c client task
  have resumes := resumes_of_work furnished found alive known follows after
  obtain ⟨deeds, seat', next', staged⟩ := staged_performSessionTask furnished known task
  obtain ⟨seat, hseat, guests⟩ := errand.guest? known
  obtain ⟨sessions, inHand⟩ := errand.halls
  subst own
  exact ⟨next, {
    found := known
    busy := performing_of_alive furnished.serial found alive
    errand := ⟨_, errand, resumes.quiet⟩
    guest? := by
      refine ⟨seat, hseat, fun d => ?_⟩
      rw [← guests, World.guest?, client?, resumes.state, World.guest?, client?]
    inHand? := by
      intro h d held
      rw [World.inHand?, hall?, resumes.state] at held
      exact inHand h d held
    session? := by
      intro h k
      rw [← sessions, World.session?, hall?, resumes.state, World.session?, hall?]
    named := by
      intro k
      rw [resumes.named, errand.named]
    duties := duties_of_act staged.reseats resumes.performing resumes.awaiting }⟩

/-- Whose job is performed is a client, and the queue that performs it is that of its session. -/
theorem client_of_executing (serial : w.pool.Serial)
    (placed : ∀ q c task, (c, task) ∈ w.duties q → ∃ s, w.standing? c = some s ∧ s.queue = q)
    (found : w.pool.queue? q = some queue) {c : ClientRef} {task : SessionTask}
    (alive : queue.drains[i]? = some (.executing (.session c task))) :
    ∃ client, w.client? c = some client ∧ client.queue = q := by
  have duty : (c, task) ∈ w.duties q := by
    rw [duties_eq, performing_of_alive serial found alive]
    exact List.mem_append_left _ List.mem_cons_self
  obtain ⟨s, standing, own⟩ := placed q c task duty
  obtain ⟨client, known, rfl⟩ := Option.map_eq_some_iff.1 standing
  exact ⟨client, known, own⟩

/-- The next step of a drain, if jobs are on the queues of their clients, is one of the job of a
session, or goes unnoticed. -/
theorem work_cases (furnished : Furnished w)
    (placed : ∀ q c task, (c, task) ∈ w.duties q → ∃ s, w.standing? c = some s ∧ s.queue = q)
    (after : Jobs.Realm.advance? perform w q i = some v) :
    Steady w v ∧ (∀ c task, Jobs.Realm.phase? w q i ≠ some (.executing (.session c task))) ∨
      ∃ c client task next, Jobs.Realm.phase? w q i = some (.executing (.session c task)) ∧
        Acts w c client task next v := by
  have serial := furnished.serial
  rcases advance?_cases after with ⟨phase, rfl⟩ | ⟨phase, rfl⟩ | ⟨job, phase⟩
  all_goals obtain ⟨queue, found, alive⟩ := phase?_eq_some.1 phase
  · refine .inl ⟨steady_modify w q fun _ same => ?_, by simp [phase]⟩
    obtain rfl := Option.some.inj (found.symm.trans same)
    rw [(serial q queue found).outstanding_fetch alive]
  · refine .inl ⟨steady_modify w q fun _ same => ?_, by simp [phase]⟩
    obtain rfl := Option.some.inj (found.symm.trans same)
    rw [(serial q queue found).outstanding_recheck alive]
  · cases job with
    | room r task => exact .inl ⟨steady_room serial found alive after, by simp [phase]⟩
    | hold gate => exact .inl ⟨steady_hold serial found alive after, by simp [phase]⟩
    | session c task =>
        obtain ⟨client, known, own⟩ := client_of_executing serial placed found alive
        obtain ⟨next, acts⟩ := acts_of_work furnished found alive known own after
        exact .inr ⟨c, client, task, next, phase, acts⟩

end Drain

/-! ## The other events -/

/-- A hall that is opened has no sessions. -/
theorem steady_openHall (w : World) (defaultRoom : String) :
    Steady w (w.openHall defaultRoom).1 := by
  have halls (h : HallRef) : (w.openHall defaultRoom).1.hall? h =
      if h = w.state.halls.length then some { defaultRoom } else w.hall? h :=
    getElem?_append_singleton w.state.halls _ h
  have missing : w.hall? w.state.halls.length = none := List.getElem?_eq_none (Nat.le_refl _)
  refine ⟨fun _ => rfl, fun h c held => ?_, fun h k => ?_, fun _ => rfl, fun _ => rfl⟩
  · rw [inHand?, halls] at held
    split at held
    · contradiction
    · exact held
  · rw [session?, session?, halls]
    split
    · next new =>
        rw [new, missing]
        rfl
    · rfl

theorem hall?_newClient {h : HallRef} {hall : Hall} (found : w.hall? h = some hall) (k : HallRef) :
    (w.newClient h).1.hall? k =
      if h = k then
        (w.hall? k).map fun hall => { hall with nextSessionId := hall.nextSessionId + 1 }
      else w.hall? k := by
  rw [newClient, takeSessionId, found]
  exact hall?_modifyHall w h k _

theorem comes_of_accept {h : HallRef} (after : w.acceptStep? h = some v) : Comes w h v := by
  simp only [acceptStep?, Option.bind_eq_bind, Option.bind_eq_some_iff,
    Option.ite_none_right_eq_some, Option.some.injEq] at after
  obtain ⟨hall, found, free, rfl⟩ := after
  have accepting : ∃ d, w.door? h = some d ∧ d.accepting = true := by
    refine ⟨hall.door, ?_, ((Bool.and_eq_true ..).mp free).1⟩
    rw [door?, found]
    rfl
  have halls (k : HallRef) : ((w.newClient h).1.hall? k).bind Hall.inHand = w.inHand? k ∧
      ∀ sessionId, (w.newClient h).1.session? k sessionId = w.session? k sessionId := by
    rw [inHand?, hall?_newClient found]
    refine ⟨?_, fun sessionId => ?_⟩
    · split <;> cases w.hall? k <;> rfl
    · rw [session?, hall?_newClient found, session?]
      split <;> cases w.hall? k <;> rfl
  refine ⟨accepting, ⟨⟨h, hall.nextSessionId, w.pool.queues.length⟩, rfl, fun d => ?_⟩,
    fun k d held => ?_, fun k sessionId => ?_, fun k => ?_, fun q => ?_⟩
  · change (w.newClient h).1.guest? d = _
    rw [guest?, client?_newClient found]
    split <;> rfl
  · rw [takeInHand, inHand?_modifyHall] at held
    split at held
    · next same =>
        obtain ⟨_, -, hd⟩ := Option.bind_eq_some_iff.1 held
        refine .inr ⟨same.symm, (Option.some.inj hd).symm.trans ?_⟩
        rw [newClient, takeSessionId, found]
        rfl
    · exact .inl ((halls k).1.symm.trans held)
  · rw [takeInHand, session?_modifyHall]
    split <;> exact (halls k).2 sessionId
  · change (w.newClient h).1.pool.find? _ = _
    rw [pool_newClient found]
    rfl
  · change (w.newClient h).1.duties q = _
    rw [duties_eq, duties_eq, performing, (jobs_newClient found q).1, (jobs_newClient found q).2,
      performing]

/-- The next step in noticing that a client comes. -/
theorem visits_arrive (furnished : Furnished w) {c : ClientRef} (after : w.arriveStep? c = some v) :
    Visits w v (w.hook? (.arrive c)) := by
  simp only [arriveStep?, Option.bind_eq_bind, Option.bind_eq_some_iff,
    Option.ite_none_left_eq_some] at after
  obtain ⟨client, found, -, after⟩ := after
  have own := guest?_of_client found
  have hook : w.hook? (.arrive c) = client.arrival.next?.map (c, ·) := by
    rw [hook?, own]
    rfl
  rw [hook]
  split at after
  · next arrival =>
      obtain rfl := Option.some.inj after
      have fits : client.guest.fits .attach = true := decide_eq_true arrival
      rw [arrival]
      exact .lives c _ _ (lives_modifyClient own fits rfl rfl (Steady.refl w) fun _ => rfl)
  · next arrival =>
      obtain rfl := Option.some.inj after
      have fits : client.guest.fits .register = true := decide_eq_true arrival
      rw [arrival]
      exact .lives c _ _ (lives_register furnished found fits)
  · next arrival =>
      obtain rfl := Option.some.inj after
      have fits : client.guest.fits .enlist = true := decide_eq_true arrival
      rw [arrival, enlist, found]
      exact .lives c _ _ (lives_listing furnished found fits (·.insert client.sessionId c)
        (fun sessions k => Table.find?_insert sessions client.sessionId k c) (.inl rfl) fun _ => rfl)
  · next arrival =>
      obtain rfl := Option.some.inj after
      have fits : client.guest.fits .greet = true := decide_eq_true arrival
      rw [arrival]
      exact .lives c _ _ (lives_push furnished found fits rfl rfl fun _ => rfl)
  · contradiction

/-- The next step in noticing that a client goes. -/
theorem visits_depart (furnished : Furnished w) {c : ClientRef} (after : w.departStep? c = some v) :
    Visits w v (w.hook? (.depart c)) := by
  simp only [departStep?, Option.bind_eq_bind, Option.bind_eq_some_iff] at after
  obtain ⟨client, found, after⟩ := after
  have own := guest?_of_client found
  have hook : w.hook? (.depart c) = client.departure.next?.map (c, ·) := by
    rw [hook?, own]
    rfl
  rw [hook]
  split at after
  · next departure =>
      rw [Option.ite_none_right_eq_some, Option.some.injEq] at after
      obtain ⟨connected, rfl⟩ := after
      rw [departure]
      exact .lives c _ _ (lives_close found ((Bool.and_eq_true ..).mp connected).2 (Steady.refl w))
  · next departure =>
      obtain rfl := Option.some.inj after
      have fits : client.guest.fits .delist = true := decide_eq_true departure
      rw [departure, delist, found]
      exact .lives c _ _ (lives_listing furnished found fits (·.erase client.sessionId)
        (fun sessions k => Table.find?_erase sessions client.sessionId k) (.inr rfl) fun _ => rfl)
  · next departure =>
      obtain rfl := Option.some.inj after
      have fits : client.guest.fits .seeOff = true := decide_eq_true departure
      rw [departure]
      exact .lives c _ _ (lives_push furnished found fits rfl rfl fun _ => rfl)
  · contradiction

/-- A shutdown disconnects the next of the sessions it has seen, or finds it disconnected. -/
theorem visits_dismiss {h : HallRef} (after : w.dismissStep? h = some v) :
    Visits w v (w.hook? (.dismiss h)) := by
  simp only [dismissStep?, Option.bind_eq_bind, Option.bind_eq_some_iff] at after
  obtain ⟨hall, found, clients, dismissing, after⟩ := after
  cases clients with
  | nil => contradiction
  | cons c later =>
      obtain rfl := Option.some.inj after
      have taken : Steady w (w.modifyHall h fun hall => { hall with dismissing := some later }) :=
        steady_modifyHall w h (fun _ => rfl) fun _ _ => id
      have hook : w.hook? (.dismiss h) =
          if (w.client? c).any Client.isConnected then some (c, .close) else none := by
        have next : (w.hall? h).bind Hall.dismissing = some (c :: later) :=
          Option.bind_eq_some_iff.2 ⟨hall, found, dismissing⟩
        simp only [hook?, next, guest?, Option.any_map]
        rfl
      have same : (w.modifyHall h fun hall => { hall with dismissing := some later }).client? c =
          w.client? c := rfl
      rw [hook, same]
      by_cases connected : (w.client? c).any Client.isConnected = true
      · rw [if_pos connected, if_pos connected]
        obtain ⟨client, known, isConnected⟩ := (Option.any_eq_true ..).1 connected
        exact .lives c _ _ (lives_close known isConnected taken)
      · rw [if_neg connected, if_neg connected]
        exact .steady taken

theorem visits_start (linked : Linked w) {h : HallRef} {works : Bool}
    (after : w.startStep? h works = some v) : Visits w v (w.hook? (.start h works)) := by
  simp only [startStep?, Option.bind_eq_bind, Option.bind_eq_some_iff, Option.some.injEq] at after
  obtain ⟨hall, found, c, held, rfl⟩ := after
  cases works with
  | false => exact .steady (steady_modifyHall w h (fun _ => rfl) (by simp))
  | true =>
      have held : w.inHand? h = some c := Option.bind_eq_some_iff.2 ⟨hall, found, held⟩
      obtain ⟨g, lives⟩ := lives_start linked held
      rw [hook?, if_pos rfl, held]
      exact .lives c g .start lives

/-- Every event but the steps of the drains is a step in the life of a client, or it is none. -/
theorem visits_of_after? (furnished : Furnished w) (linked : Linked w) {e : Event}
    (outer : ∀ q i, e ≠ .work q i) (after : w.after? e = some v) : Visits w v (w.hook? e) := by
  cases e with
  | openHall defaultRoom =>
      obtain rfl := Option.some.inj after
      exact .steady ((steady_openHall w defaultRoom).trans (steady_getOrCreateRoom _ _ _))
  | room h name =>
      simp only [after?, Option.ite_none_right_eq_some, Option.some.injEq] at after
      obtain ⟨-, rfl⟩ := after
      exact .steady (steady_getOrCreateRoom w h name)
  | enterRoom h name c =>
      simp only [after?, Option.ite_none_right_eq_some, Option.some.injEq] at after
      obtain ⟨-, rfl⟩ := after
      exact .steady (steady_enterRoom w h name c)
  | leaveRoom r playerId =>
      simp only [after?, Option.ite_none_right_eq_some, Option.some.injEq] at after
      obtain ⟨-, rfl⟩ := after
      exact .steady ((steady_pushToRoom w r _).trans (steady_pushTidy _ r))
  | tidyRoom r =>
      simp only [after?, Option.ite_none_right_eq_some, Option.some.injEq] at after
      obtain ⟨-, rfl⟩ := after
      exact .steady (steady_pushTidy w r)
  | accept h => exact .comes h (comes_of_accept after)
  | start h works => exact visits_start linked after
  | arrive c => exact visits_arrive furnished after
  | packet c p =>
      simp only [after?, Option.ite_none_right_eq_some, Option.any_eq_true, Option.some.injEq,
        Bool.and_eq_true, decide_eq_true_eq] at after
      obtain ⟨⟨client, found, greeted, -⟩, rfl⟩ := after
      exact .lives c _ _ (lives_dispatch furnished found greeted p)
  | depart c => exact visits_depart furnished after
  | release c =>
      simp only [after?, Option.ite_none_right_eq_some, Option.any_eq_true, Option.some.injEq,
        Bool.and_eq_true, decide_eq_true_eq] at after
      obtain ⟨⟨client, found, -, seenOff⟩, rfl⟩ := after
      exact .lives c _ _ (lives_release found seenOff)
  | work q i => exact absurd rfl (outer q i)
  | stop h =>
      simp only [after?, Option.ite_none_right_eq_some, Option.some.injEq] at after
      obtain ⟨-, rfl⟩ := after
      exact .steady (steady_modifyHall w h (fun _ => rfl) fun _ _ => id)
  | lookAround h =>
      simp only [after?, Option.ite_none_right_eq_some, Option.some.injEq] at after
      obtain ⟨-, rfl⟩ := after
      exact .steady (steady_modifyHall w h (fun _ => rfl) fun _ _ => id)
  | dismiss h => exact visits_dismiss after

/-- Every event is a step in the life of a client, or it is none. -/
theorem stir_of_after? (furnished : Furnished w) (linked : Linked w)
    (placed : ∀ q c task, (c, task) ∈ w.duties q → ∃ s, w.standing? c = some s ∧ s.queue = q)
    {e : Event} (after : w.after? e = some v) : Stir w v (w.hook? e) := by
  cases e with
  | work q i =>
      rcases work_cases furnished placed after with ⟨same, -⟩ | ⟨c, client, task, next, -, acts⟩
      · exact .steady same
      · exact .acts c client task next acts
  | _ => exact (visits_of_after? furnished linked (fun _ _ => Event.noConfusion) after).stir

end ChatHall.Server.World
