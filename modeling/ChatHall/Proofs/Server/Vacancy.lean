/-
# No room is forgotten

A room that is not a default one is given up by the last clean-up that is queued for
it. A clean-up that finds somebody in the room, or about to enter it, does nothing,
and is not made again by itself. So somebody has always to mind a registered room:
who is in it or has asked for it, or who has left it and has still to ask for the
clean-up. Otherwise a clean-up is queued, and nothing queued behind it moves anybody.
-/

import ChatHall.Proofs.Server.Farewell

namespace ChatHall.Server

/-- Whether an event is neither a step of a connection nor one of a queue. -/
def Event.isOutside : Event → Bool
  | openHall _ | room .. | enterRoom .. | leaveRoom .. | tidyRoom _ => true
  | _ => false

theorem Event.isDirect_eq_false {e : Event} (inside : e.isOutside = false) : e.isDirect = false := by
  cases e with
  | enterRoom => contradiction
  | leaveRoom => contradiction
  | _ => rfl

namespace World

variable {w v u : World} {deeds : List Deed} {past : List (RoomRef × RoomTask)}
variable {r : RoomRef} {room : Room} {e : Event}

theorem Quiet.queued (h : Quiet w v) (r : RoomRef) : v.queued r = w.queued r := by
  rw [World.queued, World.queued, h.room?, funext fun room : Room => h.agenda? room.queue]

/-- What is pushed stands behind what was queued, and what is performed stood before it. -/
theorem Moves.queued (moves : Moves w deeds v) (h : InOrder past w) (r : RoomRef) :
    w.queued r ++ tasksOf r (pushedIn deeds) = tasksOf r (ranIn deeds) ++ v.queued r := by
  have grown := moves.history h r
  rw [World.history, World.history, tasksOf_append, List.append_assoc, List.append_assoc] at grown
  exact (List.append_cancel_left grown).symm

theorem tasksOf_toList (r : RoomRef) (performs : Option (RoomRef × RoomTask)) :
    tasksOf r performs.toList = [] ∨
      ∃ task, performs = some (r, task) ∧ tasksOf r performs.toList = [task] := by
  cases performs with
  | none => exact .inl rfl
  | some e =>
      obtain ⟨s, task⟩ := e
      by_cases here : s = r
      · exact .inr ⟨task, by rw [here], by simp [tasksOf, here]⟩
      · exact .inl (by simp [tasksOf, here])

/-! ## Who minds a room -/

/-- Somebody is in a room, is about to be, or has still to ask for its clean-up. -/
inductive Minded (w : World) (r : RoomRef) : Prop
  | seated (c : ClientRef) (here : w.seat? c = some r)
  | coming (q : Jobs.QueueRef) (c : ClientRef) (name : String) (asked : Bool)
      (duty : (c, .arriving r name asked) ∈ w.duties q)
  | parting (q : Jobs.QueueRef) (c : ClientRef) (n : Next) (duty : (c, .tidying r n) ∈ w.duties q)

/-- A room is minded, or its clean-up is queued and nobody moves after that. -/
inductive Watched (w : World) (r : RoomRef) : Prop
  | minded (minded : Minded w r)
  | asked (before later : List RoomTask) (split : w.queued r = before ++ .tidy :: later)
      (still : ∀ task ∈ later, task.isMove = false)

theorem Minded.mono (h : Minded w r) (seat? : ∀ c, w.seat? c = some r → v.seat? c = some r)
    (duties : ∀ q, ∀ duty ∈ w.duties q, duty ∈ v.duties q) : Minded v r := by
  cases h with
  | seated c here => exact .seated c (seat? c here)
  | coming q c name asked duty => exact .coming q c name asked (duties q _ duty)
  | parting q c n duty => exact .parting q c n (duties q _ duty)

/-- Whoever moves somebody minds the room. -/
theorem Turn.minded (turn : Turn w deeds v) {task : RoomTask} (pushed : (r, task) ∈ pushedIn deeds)
    (moves : task.isMove = true) : Minded v r := by
  have moved (still : NoMoves deeds) : Minded v r := by
    have unmoved : task.isMove = false := still _ pushed
    rw [moves] at unmoved
    contradiction
  cases turn with
  | still still => exact moved still
  | acted q c s _ seat next none_run found busy act standing seats performing =>
      have goesOn {t : SessionTask} (follows : next = some t) : (c, t) ∈ v.duties q := by
        rw [duties_eq, performing, if_pos rfl, follows]
        exact List.mem_append_left _ List.mem_cons_self
      cases act with
      | rest _ _ _ still => exact moved still
      | leave k n =>
          obtain ⟨rfl, -⟩ := Prod.mk.inj (List.mem_singleton.1 pushed)
          exact .parting q c n (goesOn rfl)
      | enter k name asked =>
          obtain ⟨rfl, -⟩ := Prod.mk.inj (List.mem_singleton.1 pushed)
          exact .coming q c name asked (goesOn rfl)
      | _ => exact moved noMoves_nil
  | _ => exact moved noMoves_nil

/-- Somebody is in a room that is not vacant and in which nobody is about to move, or has asked
to be. -/
theorem Agreed.minded_of_taken (h : Agreed past w) (found : w.room? r = some room)
    (taken : room.isVacant = false) (still : ∀ task ∈ w.queued r, task.isMove = false) :
    Minded w r := by
  have orderly := h.inOrder.orderly
  have none_pending : room.pendingEnters = 0 := by
    rw [orderly.pending r room found]
    apply List.countP_eq_zero.2
    intro task mem enters
    have unmoved := still task mem
    cases task <;> contradiction
  have someone : room.members.entries ≠ [] := by
    intro nobody
    have vacant : room.isVacant = true := by
      rw [isVacant_iff, orderly.memberCount r room found, Table.size, nobody]
      exact ⟨rfl, none_pending⟩
    rw [taken] at vacant
    contradiction
  obtain ⟨⟨playerId, c⟩, member⟩ := List.exists_mem_of_ne_nil _ someone
  have inside := Table.mem_entries_iff.1 member
  have performed := orderly.members r room found
  obtain ⟨s, known, rfl⟩ := sessionId_of_find? (performed ▸ inside)
  obtain ⟨client, hclient, rfl⟩ := Option.map_eq_some_iff.1 known
  have entered : .enter c ∈ history past w r :=
    List.mem_append_left _ (enter_mem_of_find? (performed ▸ inside))
  have hall := h.hall_of_entered hclient found entered
  have last : lastMove? c client.sessionId (history past w r) = some (.enter c) := by
    have told := h.find?_members hclient found hall
    rw [show room.members.find? client.sessionId = some c from inside] at told
    rw [history, lastMove?_append_of_other fun task mem =>
      concerns_eq_false_of_not_isMove (still task mem)]
    by_contra outside
    rw [if_neg outside] at told
    contradiction
  obtain ⟨seats, seated, attends⟩ := h.seats
  have here : seats c = some r := by
    refine (seated.lastMove c _ r known fun other hother => ?_).1 last
    obtain rfl := Option.some.inj (found.symm.trans hother)
    exact hall
  by_cases settled : ∀ task, (c, task) ∈ w.performing client.queue → task.destination? = none
  · exact .seated c ((attends.settled c _ known settled).symm.trans here)
  · push Not at settled
    obtain ⟨task, job, destination⟩ := settled
    obtain ⟨k, there⟩ := Option.ne_none_iff_exists'.1 destination
    have same := (attends.arriving _ c task k job there).symm.trans here
    obtain rfl := Option.some.inj same
    cases task with
    | arriving k name asked =>
        obtain rfl := Option.some.inj there
        refine .coming client.queue c name asked ?_
        rw [duties_eq]
        exact List.mem_append_left _ job
    | _ => contradiction

/-! ## Clean-ups -/

/-- A room that is still registered after its clean-up was not vacant. -/
theorem isVacant_eq_false_of_tidied (performs : w.performs? e = some (r, .tidy))
    (after : w.after? e = some v) (found : w.room? r = some room)
    (registered : v.findRoom? room.hall room.name = some r) : room.isVacant = false := by
  cases e with
  | work q i =>
      rw [performs?] at performs
      split at performs
      · next job phase =>
          cases job with
          | room s task =>
              obtain ⟨rfl, rfl⟩ := Prod.mk.inj (Option.some.inj performs)
              obtain ⟨state, -⟩ := eq_of_finished phase rfl after
              have same : v.findRoom? room.hall room.name =
                  (w.removeIfVacant s).findRoom? room.hall room.name := by
                rw [findRoom?, hall?, state]
                rfl
              rw [removeIfVacant, found] at same
              dsimp only at same
              split at same
              · have struck := findRoom?_strike w room room.hall room.name
                rw [if_pos ⟨rfl, rfl⟩] at struck
                have gone := registered.symm.trans (same.trans struck)
                contradiction
              · next stays =>
                  rw [same] at registered
                  simpa [registered] using stays
          | _ => contradiction
      · contradiction
  | _ => contradiction

/-- A room that is not a default one gets the clean-up that is asked for. -/
theorem queued_pushTidy (furnished : Furnished w) (found : w.room? r = some room)
    {register : Register} (hall : w.register? room.hall = some register)
    (other : room.name ≠ register.defaultRoom) :
    (w.pushTidy r).queued r = w.queued r ++ [.tidy] := by
  obtain ⟨known, hknown, rfl⟩ := Option.map_eq_some_iff.1 hall
  have pushed : w.pushTidy r = w.pushToRoom r .tidy := by
    rw [pushTidy, found, Option.bind_some, hknown, Option.map_some]
    exact if_neg other
  obtain ⟨agenda, owes, queued⟩ := furnished.queued_eq found
  have grown := agenda?_pushToRoom found .tidy room.queue
  rw [if_pos rfl, owes] at grown
  rw [pushed, queued_of_agenda ((room?_pushToRoom w r r .tidy).trans found) grown, tasksOf_append,
    queued, tasksOf_cons, if_pos rfl]
  rfl

/-! ## Jobs of sessions -/

section Acts

variable {c d : ClientRef} {client : Client} {task t : SessionTask} {next : Option SessionTask}
variable {q : Jobs.QueueRef}

/-- Whoever minds a room goes on with it, or asks for the clean-up. -/
theorem Minded.acts (h : Minded w r) (acts : Acts w c client task next v) (furnished : Furnished w)
    (unseated : ∀ q c r name asked, (c, .arriving r name asked) ∈ w.duties q → w.seat? c = none)
    (found : w.room? r = some room) {register : Register}
    (hall : w.register? room.hall = some register) (other : room.name ≠ register.defaultRoom) :
    Watched v r := by
  obtain ⟨u, errand, quiet⟩ := acts.errand
  obtain ⟨seat, sits, seats⟩ := acts.seat?
  have current : w.seat? c = client.room := by
    rw [seat?_eq, guest?_of_client acts.found]
    rfl
  cases h with
  | seated d here =>
      by_cases own : d = c
      · subst own
        cases sits with
        | stays =>
            refine .minded (.seated d ?_)
            rw [seats, if_pos rfl, ← current]
            exact here
        | left n =>
            cases errand with
            | begin _ _ _ call => contradiction
            | leave k _ seated =>
                obtain rfl := Option.some.inj (here.symm.trans (current.trans seated))
                exact .minded (.parting _ d n (acts.duty_next rfl))
            | pass _ nowhere =>
                have away := here.symm.trans (current.trans nowhere)
                contradiction
        | arrived k name asked =>
            have away := here.symm.trans (unseated _ d k name asked acts.job)
            contradiction
      · refine .minded (.seated d ?_)
        rw [seats, if_neg own]
        exact here
  | coming q d name asked duty =>
      rcases acts.duty_after duty with kept | ⟨rfl, rfl⟩
      · exact .minded (.coming q d name asked kept)
      · cases sits with
        | stays _ _ _ settled => contradiction
        | arrived =>
            refine .minded (.seated d ?_)
            rw [seats, if_pos rfl]
  | parting q d n duty =>
      rcases acts.duty_after duty with kept | ⟨rfl, rfl⟩
      · exact .minded (.parting q d n kept)
      · cases errand with
        | begin _ _ _ call => contradiction
        | tidy =>
            refine .asked (w.queued r) [] ?_ fun _ => (List.not_mem_nil · |>.elim)
            rw [quiet.queued, queued_pushTidy furnished found hall other]

/-- The halls are the same, and whoever has a room made is about to arrive in it. -/
structure Housed (w v : World) : Prop where
  hall : ∀ k, (v.register? k).isSome → (w.register? k).isSome
  room : ∀ k name r, v.findRoom? k name = some r → w.findRoom? k name = some r ∨ Minded v r

theorem housed_of_register? (same : ∀ k, v.register? k = w.register? k) : Housed w v where
  hall k there := same k ▸ there
  room k name r registered := by
    rw [findRoom?_eq, same, ← findRoom?_eq] at registered
    exact .inl registered

theorem register?_enterRoom (w : World) (h : HallRef) (name : String) (c : ClientRef)
    (k : HallRef) :
    (w.enterRoom h name c).1.register? k = (w.getOrCreateRoom h name).1.register? k :=
  register?_pushToRoom ((w.getOrCreateRoom h name).1.modifyRoom (w.getOrCreateRoom h name).2
    fun room => { room with pendingEnters := room.pendingEnters + 1 }) _ (.enter c) k

theorem Acts.housed (h : Acts w c client task next v) (furnished : Furnished w) : Housed w v := by
  obtain ⟨u, errand, quiet⟩ := h.errand
  obtain ⟨register, hall, -⟩ := furnished.hallOfClient c _ (standing?_of_client h.found)
  have known : (w.register? client.hall).isSome := Option.isSome_of_eq_some hall
  have steadily (same : ∀ k, u.register? k = w.register? k) : Housed w v :=
    housed_of_register? fun k => (quiet.register? k).trans (same k)
  cases errand with
  | begin _ _ _ call murmurs => exact steadily murmurs.register?
  | leave s => exact steadily (register?_pushToRoom _ s _)
  | pass => exact steadily fun _ => rfl
  | tidy s =>
      refine steadily fun k => ?_
      rw [pushTidy]
      split
      · split
        · rfl
        · exact register?_pushToRoom w s .tidy k
      · rfl
  | enter asked waits =>
      refine ⟨fun k there => ?_, fun k name r registered => ?_⟩
      · rw [quiet.register?, register?_enterRoom] at there
        cases absent : w.findRoom? client.hall asked with
        | some s => rwa [getOrCreateRoom_of_some absent] at there
        | none =>
            rw [register?_getOrCreateRoom absent] at there
            split at there
            · rwa [Option.isSome_map] at there
            · exact there
      · rw [quiet.findRoom?, enterRoom, findRoom?_pushEnter, findRoom?_getOrCreateRoom known]
          at registered
        split at registered
        · obtain rfl := Option.some.inj registered
          exact .inr (.coming _ c asked waits (h.duty_next rfl))
        · exact .inl registered
  | answer response => exact steadily (calm_answer w c response).register?
  | retire => exact steadily fun _ => rfl
  | arrive => exact steadily fun _ => rfl

end Acts

/-! ## Halls and rooms that are made -/

section Visits

variable {h : HallRef} {c : ClientRef}

theorem housed_of_acceptStep? (after : w.acceptStep? h = some v) : Housed w v := by
  simp only [acceptStep?, Option.bind_eq_bind, Option.bind_eq_some_iff,
    Option.ite_none_right_eq_some, Option.some.injEq] at after
  obtain ⟨hall, found, -, rfl⟩ := after
  have calm : Calm (w.newClient h).1 (w.takeInHand h).1 := calm_modifyHall _ h fun _ => rfl
  have same (k : HallRef) : (w.takeInHand h).1.register? k =
      if h = k then (w.register? k).map fun register =>
        { register with nextSessionId := register.nextSessionId + 1 }
      else w.register? k :=
    (calm.register? k).trans (register?_newClient found k)
  refine ⟨fun k there => ?_, fun k name r registered => .inl ?_⟩
  · rw [same] at there
    split at there
    · rwa [Option.isSome_map] at there
    · exact there
  · rw [findRoom?_eq, same] at registered
    rw [findRoom?_eq]
    split at registered
    · rwa [Option.bind_map] at registered
    · exact registered

/-- The register stays as it is while a client comes. -/
theorem register?_of_arriveStep? (after : w.arriveStep? c = some v) (k : HallRef) :
    v.register? k = w.register? k := by
  simp only [arriveStep?, Option.bind_eq_bind, Option.bind_eq_some_iff,
    Option.ite_none_left_eq_some] at after
  obtain ⟨client, found, -, after⟩ := after
  split at after
  · obtain rfl := Option.some.inj after
    rfl
  · obtain rfl := Option.some.inj after
    rw [registerQueue, found]
    rfl
  · obtain rfl := Option.some.inj after
    rw [enlist, found]
    have listed : Calm w (w.modifyHall client.hall fun hall =>
        { hall with sessions := hall.sessions.insert client.sessionId c }) :=
      calm_modifyHall w _ fun _ => rfl
    exact listed.register? k
  · obtain rfl := Option.some.inj after
    exact (quiet_pushToSession w c .welcome).register? k
  · contradiction

theorem register?_of_departStep? (after : w.departStep? c = some v) (k : HallRef) :
    v.register? k = w.register? k := by
  simp only [departStep?, Option.bind_eq_bind, Option.bind_eq_some_iff] at after
  obtain ⟨client, found, after⟩ := after
  split at after
  · rw [Option.ite_none_right_eq_some, Option.some.injEq] at after
    obtain ⟨-, rfl⟩ := after
    rfl
  · obtain rfl := Option.some.inj after
    rw [delist, found]
    have removed : Calm w (w.removeSession client.hall client.sessionId) :=
      calm_modifyHall w _ fun _ => rfl
    exact removed.register? k
  · obtain rfl := Option.some.inj after
    exact (quiet_pushToSession w c .farewell).register? k
  · contradiction

theorem register?_of_dismissStep? (after : w.dismissStep? h = some v) (k : HallRef) :
    v.register? k = w.register? k := by
  simp only [dismissStep?, Option.bind_eq_bind, Option.bind_eq_some_iff] at after
  obtain ⟨hall, -, clients, -, after⟩ := after
  cases clients with
  | nil => contradiction
  | cons c later =>
      have taken : Calm w (w.modifyHall h fun hall => { hall with dismissing := some later }) :=
        calm_modifyHall w h fun _ => rfl
      obtain rfl := Option.some.inj after
      split <;> exact taken.register? k

theorem register?_of_startStep? {works : Bool} (after : w.startStep? h works = some v)
    (k : HallRef) : v.register? k = w.register? k := by
  simp only [startStep?, Option.bind_eq_bind, Option.bind_eq_some_iff, Option.some.injEq] at after
  obtain ⟨hall, -, c, -, rfl⟩ := after
  have taken : Calm w (w.modifyHall h fun hall => { hall with inHand := none }) :=
    calm_modifyHall w h fun _ => rfl
  split <;> exact taken.register? k

/-- A job of a room makes none. -/
theorem housed_performRoomTask (state : v.state = (w.performRoomTask r task).state) :
    Housed w v := by
  have same (k : HallRef) : v.register? k = (w.performRoomTask r task).register? k := by
    rw [register?, hall?, state, register?, hall?]
  by_cases tidies : task = .tidy
  · subst tidies
    rcases removeIfVacant_cases w r with stays | ⟨room, -, -, -, struck⟩
    · refine housed_of_register? fun k => ?_
      rw [same, performRoomTask, stays]
    · refine ⟨fun k there => ?_, fun k name s registered => .inl ?_⟩
      · rw [same, performRoomTask, struck, register?_strike] at there
        split at there
        · rwa [Option.isSome_map] at there
        · exact there
      · rw [findRoom?_eq, same, performRoomTask, struck, ← findRoom?_eq, findRoom?_strike]
          at registered
        split at registered
        · contradiction
        · exact registered
  · exact housed_of_register? fun k =>
      (same k).trans ((calm_performRoomTask w r tidies).register? k)

theorem Tended.housed_of_work (h : Tended past w) {q : Jobs.QueueRef} {i : Nat}
    (after : Jobs.Realm.advance? perform w q i = some v) : Housed w v := by
  have furnished := h.agreed.inOrder.furnished
  rcases advance?_cases after with ⟨-, rfl⟩ | ⟨-, rfl⟩ | ⟨job, phase⟩
  · exact housed_of_register? fun _ => rfl
  · exact housed_of_register? fun _ => rfl
  · cases job with
    | room s task => exact housed_performRoomTask (eq_of_finished phase rfl after).1
    | hold gate =>
        refine housed_of_register? fun k => ?_
        rw [register?, hall?, (eq_of_hold phase after).1]
        rfl
    | session c task =>
        obtain ⟨queue, found, alive⟩ := phase?_eq_some.1 phase
        obtain ⟨client, known, own⟩ := client_of_executing furnished.serial h.placed found alive
        obtain ⟨next, acts⟩ := acts_of_work furnished found alive known own after
        exact acts.housed furnished

end Visits

/-- No step of a connection or of a queue opens a hall, and whoever has a room made by one is
about to arrive in it. -/
theorem Tended.housed (h : Tended past w) (inside : e.isOutside = false)
    (after : w.after? e = some v) : Housed w v := by
  cases e with
  | openHall => contradiction
  | room => contradiction
  | enterRoom => contradiction
  | leaveRoom => contradiction
  | tidyRoom => contradiction
  | accept i => exact housed_of_acceptStep? after
  | start i works => exact housed_of_register? (register?_of_startStep? after)
  | arrive c => exact housed_of_register? (register?_of_arriveStep? after)
  | packet c p =>
      simp only [after?, Option.ite_none_right_eq_some, Option.some.injEq] at after
      obtain ⟨-, rfl⟩ := after
      refine housed_of_register? ?_
      cases p <;> exact (quiet_pushToSession w c _).register?
  | depart c => exact housed_of_register? (register?_of_departStep? after)
  | release c =>
      simp only [after?, Option.ite_none_right_eq_some, Option.some.injEq] at after
      obtain ⟨-, rfl⟩ := after
      exact housed_of_register? fun _ => rfl
  | work q i => exact h.housed_of_work after
  | stop i =>
      simp only [after?, Option.ite_none_right_eq_some, Option.some.injEq] at after
      obtain ⟨-, rfl⟩ := after
      have calm : Calm w (w.stopAccepting i) := calm_modifyHall w i fun _ => rfl
      exact housed_of_register? calm.register?
  | lookAround i =>
      simp only [after?, Option.ite_none_right_eq_some, Option.some.injEq] at after
      obtain ⟨-, rfl⟩ := after
      have calm : Calm w (w.lookAround i) := calm_modifyHall w i fun _ => rfl
      exact housed_of_register? calm.register?
  | dismiss i => exact housed_of_register? (register?_of_dismissStep? after)

/-! ## Along a course -/

/-- Nobody is in a room while about to arrive, and every registered room that is not a default
one is watched. -/
structure Watchful (w : World) : Prop where
  unseated : ∀ q c r name asked, (c, .arriving r name asked) ∈ w.duties q → w.seat? c = none
  watched : ∀ r room register, w.room? r = some room → w.register? room.hall = some register →
    w.findRoom? room.hall room.name = some r → room.name ≠ register.defaultRoom → Watched w r

/-- Only a client that has left its room goes on to arrive in another one. -/
theorem Watchful.unseated_after (h : Watchful w) (tended : Tended past w)
    (after : w.after? e = some v) (q : Jobs.QueueRef) (c : ClientRef) (r : RoomRef) (name : String)
    (asked : Bool) (duty : (c, .arriving r name asked) ∈ v.duties q) : v.seat? c = none := by
  rcases (tended.stir after).keeps with ⟨seats, duties⟩ | ⟨d, client, task, next, acts⟩
  · rw [seats]
    rcases duties q with same | ⟨d, task, call, called⟩
    · exact h.unseated q c r name asked (same ▸ duty)
    · rw [called] at duty
      rcases List.mem_append.1 duty with before | new
      · exact h.unseated q c r name asked before
      · obtain ⟨-, rfl⟩ := Prod.mk.inj (List.mem_singleton.1 new)
        contradiction
  · obtain ⟨seat, sits, seats⟩ := acts.seat?
    obtain ⟨u, errand, -⟩ := acts.errand
    obtain ⟨_, -, attends⟩ := tended.agreed.seats
    rw [acts.duties] at duty
    rw [seats]
    split at duty
    · rcases List.mem_append.1 duty with follows | waits
      · obtain ⟨t, ht, same⟩ := List.mem_map.1 follows
        obtain ⟨rfl, rfl⟩ := Prod.mk.inj same
        rw [if_pos rfl]
        have follows := Option.mem_toList.1 ht
        cases errand with
        | begin _ _ _ call murmurs begins => cases begins <;> contradiction
        | enter room asked =>
            have job : (d, .going (.enter room asked)) ∈ w.performing client.queue :=
              acts.busy ▸ List.mem_cons_self
            have away := attends.between _ d _ job rfl
            cases sits
            rw [← away, seat?_eq, guest?_of_client acts.found]
            rfl
        | arrive _ _ _ _ later =>
            obtain ⟨_, wrong⟩ := later _ follows
            contradiction
        | _ => contradiction
      · have call := attends.calls q c _ waits
        contradiction
    · next other =>
        have unseated := h.unseated q c r name asked duty
        split
        · next own =>
            obtain ⟨s, known, queue⟩ := tended.placed q c _ duty
            rw [own, standing?_of_client acts.found] at known
            obtain rfl := Option.some.inj known
            exact absurd queue other
        · exact unseated

section Watched

variable {register : Register}

theorem Minded.after (h : Minded w r) (tended : Tended past w) (watchful : Watchful w)
    (after : w.after? e = some v) (found : w.room? r = some room)
    (hall : w.register? room.hall = some register) (other : room.name ≠ register.defaultRoom) :
    Watched v r := by
  rcases (tended.stir after).keeps with ⟨seats, duties⟩ | ⟨c, client, task, next, acts⟩
  · refine .minded (h.mono (fun c here => (seats c).trans here) fun q duty mem => ?_)
    rcases duties q with same | ⟨d, task, -, called⟩
    · exact same ▸ mem
    · exact called ▸ List.mem_append_left _ mem
  · exact h.acts acts tended.agreed.inOrder.furnished watchful.unseated found hall other

/-- A room that is watched before an event and registered after it is watched then. -/
theorem Watched.after (h : Watched w r) (tended : Tended past w) (watchful : Watchful w)
    (inside : e.isOutside = false) (after : w.after? e = some v) (found : w.room? r = some room)
    (hall : w.register? room.hall = some register) (other : room.name ≠ register.defaultRoom)
    (registered : v.findRoom? room.hall room.name = some r) : Watched v r := by
  have minded (minded : Minded w r) : Watched v r :=
    minded.after tended watchful after found hall other
  cases h with
  | minded h => exact minded h
  | asked before later split still =>
      have inOrder := tended.agreed.inOrder
      obtain ⟨deeds, change⟩ := change_of_after? inOrder.furnished after
      by_cases moved : ∃ task, (r, task) ∈ pushedIn deeds ∧ task.isMove = true
      · obtain ⟨task, pushed, moves⟩ := moved
        exact .minded ((change.turn (Event.isDirect_eq_false inside)).minded pushed moves)
      have quiet : ∀ task ∈ later ++ tasksOf r (pushedIn deeds), task.isMove = false := by
        intro task mem
        rcases List.mem_append.1 mem with old | new
        · exact still task old
        · exact eq_false_of_ne_true fun moves => moved ⟨task, mem_tasksOf.1 new, moves⟩
      have queue := change.moves.queued inOrder r
      rw [change.ran, split, List.append_assoc, List.cons_append] at queue
      rcases tasksOf_toList r (w.performs? e) with idle | ⟨task, performs, ran⟩
      · rw [idle] at queue
        exact .asked before _ queue.symm quiet
      rw [ran] at queue
      cases before with
      | nil =>
          -- The clean-up is performed, finds somebody, and is forgotten.
          obtain ⟨rfl, -⟩ := List.cons.inj queue
          refine minded (tended.agreed.minded_of_taken found
            (isVacant_eq_false_of_tidied performs after found registered) fun task mem => ?_)
          rw [split] at mem
          rcases List.mem_cons.1 mem with rfl | waits
          · rfl
          · exact still task waits
      | cons _ before => exact .asked before _ (List.cons.inj queue).2.symm quiet

end Watched

/-- No event that is a step of a connection or of a queue makes anybody forget a room. -/
theorem Watchful.after (h : Watchful w) (tended : Tended past w) (inside : e.isOutside = false)
    (after : w.after? e = some v) : Watchful v where
  unseated := h.unseated_after tended after
  watched r room register found hall registered other := by
    have furnished := tended.agreed.inOrder.furnished
    rcases (tended.housed inside after).room _ _ r registered with old | minded
    · obtain ⟨deeds, change⟩ := change_of_after? furnished after
      have ext := change.moves.extends
      obtain ⟨before, hbefore, hhall, hname⟩ := furnished.registered _ _ r old
      obtain ⟨same, hsame, -⟩ := ext.room r before hbefore
      obtain ⟨known, hknown⟩ := Option.isSome_iff_exists.1 (furnished.hallOfRoom r before hbefore)
      obtain ⟨now, hnow, default, -⟩ := ext.register _ known hknown
      rw [hhall, hall] at hnow
      obtain rfl := Option.some.inj hnow
      rw [← hhall, ← hname] at old registered
      rw [← hname, default] at other
      exact (h.watched r before known hbefore hknown old other).after tended h inside after hbefore
        hknown other registered
    · exact .minded minded

end World

end ChatHall.Server
