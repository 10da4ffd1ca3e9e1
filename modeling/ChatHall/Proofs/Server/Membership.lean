/-
# Clients and member lists agree

A client's idea of its room is changed on the queue of its session, the members
of a room later on the queue of the room. Between two jobs of its session a
client is, by its own account, in the room whose history ends for it with an
entrance, and in no other one; once nothing is left to do, it is a member of that
room alone.
-/

import ChatHall.Proofs.Server.Seat
import Mathlib.Data.List.Induction

namespace ChatHall.Server

namespace World

variable {w v u : World} {deeds : List Deed} {past : List (RoomRef × RoomTask)}
variable {seats : ClientRef → Option RoomRef}

/-! ## The jobs of the sessions and the seats -/

/-- Where a client has asked to be is its own account of it, or else the room at which the stage
of its job is about to arrive. -/
structure Attends (w : World) (seats : ClientRef → Option RoomRef) : Prop where
  placed : ∀ q c task, (c, task) ∈ w.performing q ∨ (c, task) ∈ w.awaiting q →
    ∃ s, w.standing? c = some s ∧ s.queue = q
  calls : ∀ q c task, (c, task) ∈ w.awaiting q → task.isCall = true
  arriving : ∀ q c task r, (c, task) ∈ w.performing q → task.destination? = some r →
    seats c = some r
  settled : ∀ c s, w.standing? c = some s →
    (∀ task, (c, task) ∈ w.performing s.queue → task.destination? = none) → seats c = w.seat? c
  between : ∀ q c task, (c, task) ∈ w.performing q → task.isBetween = true → w.seat? c = none

theorem Attends.still (h : Attends w seats) (same : Still w v) : Attends v seats where
  placed q c task job := by
    rw [same.performing, same.awaiting] at job
    rw [same.standing?]
    exact h.placed q c task job
  calls q c task job := by
    rw [same.awaiting] at job
    exact h.calls q c task job
  arriving q c task r job := by
    rw [same.performing] at job
    exact h.arriving q c task r job
  settled c s known nowhere := by
    rw [same.standing?] at known
    rw [same.performing] at nowhere
    rw [same.seat?]
    exact h.settled c s known nowhere
  between q c task job isBetween := by
    rw [same.performing] at job
    rw [same.seat?]
    exact h.between q c task job isBetween

/-- A client that comes has no seat and no job. -/
theorem Attends.came (h : Attends w seats) (seated : Seated past w seats) {i : HallRef}
    {hall : Hall} (found : w.hall? i = some hall) : Attends (w.newClient i).1 seats := by
  have performing (q : Jobs.QueueRef) : (w.newClient i).1.performing q = w.performing q := by
    rw [World.performing, World.performing, (jobs_newClient found q).1]
  have kept {c : ClientRef} {s : Standing} (known : w.standing? c = some s) :
      (w.newClient i).1.standing? c = some s :=
    (Move.newClient w i hall found).standing known
  exact {
    placed := by
      intro q c task job
      rw [performing, (jobs_newClient found q).2] at job
      obtain ⟨s, known, queue⟩ := h.placed q c task job
      exact ⟨s, kept known, queue⟩
    calls := by
      intro q c task job
      rw [(jobs_newClient found q).2] at job
      exact h.calls q c task job
    arriving := by
      intro q c task r job
      rw [performing] at job
      exact h.arriving q c task r job
    settled := by
      intro c s known nowhere
      rw [performing] at nowhere
      rw [seat?_newClient found]
      cases before : w.standing? c with
      | none =>
          have no_client : w.client? c = none := Option.map_eq_none_iff.1 before
          rw [seat?, no_client]
          exact Option.eq_none_iff_forall_ne_some.2 (seated.seat_of_missing before)
      | some t =>
          obtain rfl := Option.some.inj ((kept before).symm.trans known)
          exact h.settled c t before nowhere
    between := by
      intro q c task job isBetween
      rw [performing] at job
      rw [seat?_newClient found]
      exact h.between q c task job isBetween }

/-- A job that is called waits, and none of those that wait has come to a stage with a room. -/
theorem Attends.called (h : Attends w seats) {c : ClientRef} {s : Standing} {task : SessionTask}
    (found : w.standing? c = some s) (call : task.isCall = true)
    (standing : ∀ d, v.standing? d = w.standing? d) (seat : ∀ d, v.seat? d = w.seat? d)
    (performing : ∀ q, v.performing q = w.performing q)
    (awaiting : ∀ q, v.awaiting q =
      if s.queue = q then w.awaiting q ++ [(c, task)] else w.awaiting q) : Attends v seats := by
  have waits {q : Jobs.QueueRef} {d : ClientRef} {other : SessionTask}
      (job : (d, other) ∈ v.awaiting q) :
      (d, other) ∈ w.awaiting q ∨ d = c ∧ other = task ∧ s.queue = q := by
    rw [awaiting] at job
    split at job
    · next here =>
        rcases List.mem_append.1 job with old | new
        · exact .inl old
        · obtain ⟨rfl, rfl⟩ := Prod.mk.inj (List.mem_singleton.1 new)
          exact .inr ⟨rfl, rfl, here⟩
    · exact .inl job
  exact {
    placed := by
      intro q d other job
      rw [standing]
      rcases job with performed | waiting
      · rw [performing] at performed
        exact h.placed q d other (.inl performed)
      · rcases waits waiting with old | ⟨rfl, -, here⟩
        · exact h.placed q d other (.inr old)
        · exact ⟨s, found, here⟩
    calls := by
      intro q d other job
      rcases waits job with old | ⟨-, rfl, -⟩
      · exact h.calls q d other old
      · exact call
    arriving := by
      intro q d other r job
      rw [performing] at job
      exact h.arriving q d other r job
    settled := by
      intro d t known nowhere
      rw [standing] at known
      rw [performing] at nowhere
      rw [seat]
      exact h.settled d t known nowhere
    between := by
      intro q d other job isBetween
      rw [performing] at job
      rw [seat]
      exact h.between q d other job isBetween }

/-- A drain takes a job that has been called, or none of a session. -/
theorem Attends.fetched (h : Attends w seats) {q : Jobs.QueueRef} (free : w.performing q = [])
    (standing : ∀ d, v.standing? d = w.standing? d) (seat : ∀ d, v.seat? d = w.seat? d)
    (taken : v.performing q = [] ∧ v.awaiting q = w.awaiting q ∨
      ∃ e, v.performing q = [e] ∧ w.awaiting q = e :: v.awaiting q)
    (performing : ∀ k, k ≠ q → v.performing k = w.performing k)
    (awaiting : ∀ k, k ≠ q → v.awaiting k = w.awaiting k) : Attends v seats := by
  have performed {k : Jobs.QueueRef} {c : ClientRef} {task : SessionTask}
      (job : (c, task) ∈ v.performing k) :
      (c, task) ∈ w.performing k ∨ (c, task) ∈ w.awaiting k := by
    by_cases here : k = q
    · subst here
      rcases taken with ⟨none_taken, -⟩ | ⟨e, one_taken, waited⟩
      · rw [none_taken] at job
        contradiction
      · rw [one_taken] at job
        rw [waited, List.mem_singleton.1 job]
        exact .inr List.mem_cons_self
    · rw [performing k here] at job
      exact .inl job
  have waits {k : Jobs.QueueRef} {c : ClientRef} {task : SessionTask}
      (job : (c, task) ∈ v.awaiting k) : (c, task) ∈ w.awaiting k := by
    by_cases here : k = q
    · subst here
      rcases taken with ⟨-, same⟩ | ⟨e, -, waited⟩
      · rwa [same] at job
      · rw [waited]
        exact List.mem_cons_of_mem _ job
    · rwa [awaiting k here] at job
  exact {
    placed := by
      intro k c task job
      rw [standing]
      rcases job with now | waiting
      · exact h.placed k c task (performed now)
      · exact h.placed k c task (.inr (waits waiting))
    calls := fun k c task job => h.calls k c task (waits job)
    arriving := by
      intro k c task r job destination
      rcases performed job with before | waiting
      · exact h.arriving k c task r before destination
      · rw [(SessionTask.of_isCall (h.calls k c task waiting)).1] at destination
        contradiction
    settled := by
      intro c s known nowhere
      rw [standing] at known
      rw [seat]
      apply h.settled c s known
      intro task job
      by_cases here : s.queue = q
      · rw [here, free] at job
        contradiction
      · rw [← performing _ here] at job
        exact nowhere task job
    between := by
      intro k c task job isBetween
      rw [seat]
      rcases performed job with before | waiting
      · exact h.between k c task before isBetween
      · rw [(SessionTask.of_isCall (h.calls k c task waiting)).2] at isBetween
        contradiction }

/-- A stage of a job of one client leaves the other clients where they are. -/
theorem Attends.acted (h : Attends w seats) {q : Jobs.QueueRef} {c : ClientRef} {s : Standing}
    {task : SessionTask} {seat : Option RoomRef} {next : Option SessionTask}
    (found : w.standing? c = some s) (busy : w.performing q = [(c, task)])
    (standing : ∀ d, v.standing? d = w.standing? d)
    (seatsNow : ∀ d, v.seat? d = if d = c then seat else w.seat? d)
    (performing : ∀ k, v.performing k = if q = k then next.toList.map (c, ·) else w.performing k)
    (awaiting : ∀ k, v.awaiting k = w.awaiting k) (asked : Option RoomRef)
    (arriving : ∀ t ∈ next, ∀ r, t.destination? = some r → asked = some r)
    (settled : (∀ t ∈ next, t.destination? = none) → asked = seat)
    (between : ∀ t ∈ next, t.isBetween = true → seat = none) :
    Attends v fun d => if d = c then asked else seats d := by
  have own : s.queue = q := by
    obtain ⟨t, known, queue⟩ := h.placed q c task (.inl (busy ▸ List.mem_cons_self))
    obtain rfl := Option.some.inj (found.symm.trans known)
    exact queue
  have performed {k : Jobs.QueueRef} {d : ClientRef} {t : SessionTask}
      (job : (d, t) ∈ v.performing k) :
      d = c ∧ t ∈ next ∧ q = k ∨ d ≠ c ∧ (d, t) ∈ w.performing k := by
    rw [performing] at job
    split at job
    · next here =>
        obtain ⟨t', ht', same⟩ := List.mem_map.1 job
        obtain ⟨rfl, rfl⟩ := Prod.mk.inj same
        exact .inl ⟨rfl, Option.mem_toList.1 ht', here⟩
    · next other =>
        right
        refine ⟨?_, job⟩
        rintro rfl
        obtain ⟨s', known, queue⟩ := h.placed k d t (.inl job)
        obtain rfl := Option.some.inj (found.symm.trans known)
        exact other (own.symm.trans queue)
  exact {
    placed := by
      intro k d t job
      rw [standing]
      rcases job with now | waiting
      · rcases performed now with ⟨rfl, -, here⟩ | ⟨-, before⟩
        · exact ⟨s, found, own.trans here⟩
        · exact h.placed k d t (.inl before)
      · rw [awaiting] at waiting
        exact h.placed k d t (.inr waiting)
    calls := by
      intro k d t job
      rw [awaiting] at job
      exact h.calls k d t job
    arriving := by
      intro k d t r job destination
      rcases performed job with ⟨rfl, now, -⟩ | ⟨other, before⟩
      · rw [if_pos rfl]
        exact arriving t now r destination
      · rw [if_neg other]
        exact h.arriving k d t r before destination
    settled := by
      intro d s' known nowhere
      rw [standing] at known
      rw [seatsNow]
      by_cases same : d = c
      · subst same
        obtain rfl := Option.some.inj (found.symm.trans known)
        rw [if_pos rfl, if_pos rfl]
        apply settled
        intro t now
        apply nowhere t
        rw [own, performing, if_pos rfl]
        exact List.mem_map_of_mem (Option.mem_toList.2 now)
      · rw [if_neg same, if_neg same]
        apply h.settled d s' known
        intro t job
        by_cases here : q = s'.queue
        · rw [← here, busy] at job
          exact absurd (Prod.mk.inj (List.mem_singleton.1 job)).1 same
        · apply nowhere t
          rw [performing, if_neg here]
          exact job
    between := by
      intro k d t job isBetween
      rw [seatsNow]
      rcases performed job with ⟨rfl, now, -⟩ | ⟨other, before⟩
      · rw [if_pos rfl]
        exact between t now isBetween
      · rw [if_neg other]
        exact h.between k d t before isBetween }

/-! ## Agreement -/

/-- The histories and the jobs of the sessions tell the same about every client. -/
structure Agreed (past : List (RoomRef × RoomTask)) (w : World) : Prop where
  inOrder : InOrder past w
  seats : ∃ seats, Seated past w seats ∧ Attends w seats

/-- A client whose job is at a stage without a destination is where it says. -/
theorem Attends.seat_of_busy (h : Attends w seats) {q : Jobs.QueueRef} {c : ClientRef}
    {s : Standing} {task : SessionTask} (found : w.standing? c = some s)
    (busy : w.performing q = [(c, task)]) (nowhere : task.destination? = none) :
    seats c = w.seat? c := by
  obtain ⟨t, known, rfl⟩ := h.placed q c task (.inl (busy ▸ List.mem_cons_self))
  obtain rfl := Option.some.inj (found.symm.trans known)
  apply h.settled c s found
  intro other job
  rw [busy] at job
  rw [(Prod.mk.inj (List.mem_singleton.1 job)).2]
  exact nowhere

/-- A seat that is taken again is as before. -/
theorem seats_of_eq {c : ClientRef} {seat : Option RoomRef} (here : seats c = seat) :
    (fun d => if d = c then seat else seats d) = seats := by
  funext d
  by_cases own : d = c
  · rw [if_pos own, own, here]
  · exact if_neg own

/-- One stage of a job of a session keeps the agreement. -/
theorem Agreed.acted (inOrder : InOrder past w) (seated : Seated past w seats)
    (attends : Attends w seats) (moves : Moves w deeds v) (none_run : ranIn deeds = [])
    {q : Jobs.QueueRef} {c : ClientRef} {s : Standing} {task : SessionTask}
    {seat : Option RoomRef} {next : Option SessionTask} (found : w.standing? c = some s)
    (busy : w.performing q = [(c, task)]) (act : Act w c s v task deeds seat next)
    (standing : ∀ d, v.standing? d = w.standing? d)
    (seatsNow : ∀ d, v.seat? d = if d = c then seat else w.seat? d)
    (performing : ∀ k, v.performing k = if q = k then next.toList.map (c, ·) else w.performing k)
    (awaiting : ∀ k, v.awaiting k = w.awaiting k) :
    ∃ seats, Seated past v seats ∧ Attends v seats := by
  have acted := attends.acted found busy standing seatsNow performing awaiting
  have job : (c, task) ∈ w.performing q := busy ▸ List.mem_cons_self
  cases act with
  | rest task deeds next still nowhere after =>
      have here := attends.seat_of_busy found busy nowhere
      have same : (fun d => if d = c then seats c else seats d) = seats := seats_of_eq rfl
      have kept := seated.still inOrder moves still
      rw [none_run, List.append_nil] at kept
      refine ⟨seats, kept, same ▸ acted _ (fun t ht r destination => ?_) (fun _ => here) ?_⟩
      · rw [(after t ht).1] at destination
        contradiction
      · intro t ht isBetween
        rcases (after t ht).2 isBetween with away | before
        · exact away
        · exact attends.between q c task job before
  | leave r n there =>
      have here := (attends.seat_of_busy found busy rfl).trans there
      refine ⟨_, seated.leave inOrder moves found here, acted _ ?_ (fun _ => rfl) fun _ _ _ => rfl⟩
      intro t ht k destination
      obtain rfl := Option.some.inj ht
      contradiction
  | lose r n there missing =>
      have here := (attends.seat_of_busy found busy rfl).trans there
      obtain ⟨-, room, -, known, -⟩ := seated.seat c r here
      rw [missing] at known
      contradiction
  | enter r name asked registered =>
      have away := attends.between q c _ job rfl
      have nowhere := (attends.seat_of_busy found busy rfl).trans away
      obtain ⟨room, hroom, hall, -⟩ :=
        (inOrder.furnished.moves moves).registered s.hall name r registered
      refine ⟨_, seated.enter inOrder moves found hroom hall nowhere,
        acted _ (fun t ht k destination => ?_) (fun arrived => ?_) fun t ht isBetween => ?_⟩
      · obtain rfl := Option.some.inj ht
        exact destination
      · exact nomatch arrived _ rfl
      · obtain rfl := Option.some.inj ht
        contradiction
  | arrive r name asked next after =>
      have here := attends.arriving q c _ r job rfl
      have same := seats_of_eq here
      have kept := seated.still inOrder moves noMoves_nil
      rw [none_run, List.append_nil] at kept
      refine ⟨seats, kept, same ▸ acted _ (fun t ht k destination => ?_) (fun _ => rfl) ?_⟩
      · rw [(after t ht).1] at destination
        contradiction
      · intro t ht isBetween
        rw [(after t ht).2] at isBetween
        contradiction

/-- Every event that does not go past the queues of the sessions keeps the agreement. -/
theorem Agreed.after (h : Agreed past w) {e : Event} (indirect : e.isDirect = false)
    (after : w.after? e = some v) : Agreed (past ++ (w.performs? e).toList) v := by
  obtain ⟨seats, seated, attends⟩ := h.seats
  obtain ⟨deeds, change⟩ := change_of_after? h.inOrder.furnished after
  refine ⟨h.inOrder.after after, ?_⟩
  rw [← change.ran]
  cases change.turn indirect with
  | still still same =>
      exact ⟨seats, seated.still h.inOrder change.moves still, attends.still same⟩
  | came i hall found same =>
      exact ⟨seats, seated.still h.inOrder change.moves noMoves_nil,
        (attends.came seated found).still same⟩
  | called c s task found call standing seat performing awaiting =>
      exact ⟨seats, seated.still h.inOrder change.moves noMoves_nil,
        attends.called found call standing seat performing awaiting⟩
  | fetched q free standing seat taken performing awaiting =>
      exact ⟨seats, seated.still h.inOrder change.moves noMoves_nil,
        attends.fetched free standing seat taken performing awaiting⟩
  | acted q c s task seat next none_run found busy act standing seatsNow performing awaiting =>
      rw [none_run, List.append_nil]
      exact Agreed.acted h.inOrder seated attends change.moves none_run found busy act standing
        seatsNow performing awaiting
  | lost q c task busy missing =>
      obtain ⟨s, known, -⟩ := attends.placed q c task (.inl (busy ▸ List.mem_cons_self))
      rw [missing] at known
      contradiction

theorem agreed_opened (defaultRooms : List String) : Agreed [] (opened defaultRooms) where
  inOrder := inOrder_opened defaultRooms
  seats := by
    have moves := moves_opened defaultRooms
    have nobody : Seated [] empty fun _ => none :=
      ⟨fun _ _ _ known => (nomatch known), fun _ _ seated => (nomatch seated),
        fun _ _ entered => (nomatch entered), fun _ _ _ _ _ known => (nomatch known)⟩
    have idle : Attends empty fun _ => none :=
      ⟨fun _ _ _ job => by rcases job with job | job <;> contradiction,
        fun _ _ _ job => (nomatch job), fun _ _ _ _ job => (nomatch job),
        fun _ _ known => (nomatch known), fun _ _ _ job => (nomatch job)⟩
    have still (w : World) (same : Still empty w) : Still empty
        (defaultRooms.foldl (fun w defaultRoom => (w.openHall defaultRoom).1) w) := by
      clear moves
      induction defaultRooms generalizing w with
      | nil => exact same
      | cons defaultRoom later ih =>
          exact ih _ ⟨same.standing?, same.seat?, same.performing, same.awaiting⟩
    have same := still empty ⟨fun _ => rfl, fun _ => rfl, fun _ => rfl, fun _ => rfl⟩
    exact ⟨_, nobody.still ⟨furnished_empty, orderly_empty⟩ moves noMoves_nil, idle.still same⟩

theorem agreed_of_opened {defaultRooms : List String} {events : List Event}
    (indirect : ∀ e ∈ events, e.isDirect = false)
    (course : (opened defaultRooms).afterAll? events = some w) :
    Agreed ((opened defaultRooms).performed events) w :=
  course_induction (fun _ _ e _ mem h after => h.after (indirect e mem) after)
    (agreed_opened defaultRooms) course

/-! ## The members of a room -/

/-- Who is a member has entered. -/
theorem enter_mem_of_find? {tasks : List RoomTask} {playerId : Nat} {c : ClientRef}
    (inside : (tasks.foldl w.membersAfter {}).find? playerId = some c) : .enter c ∈ tasks := by
  induction tasks using List.reverseRecOn with
  | nil => contradiction
  | append_singleton tasks task ih =>
      rw [List.foldl_append, List.foldl_cons, List.foldl_nil] at inside
      cases task with
      | enter d =>
          rw [membersAfter] at inside
          split at inside
          · rw [Table.find?_insert] at inside
            split at inside
            · rw [Option.some.inj inside]
              exact List.mem_append_right _ List.mem_cons_self
            · exact List.mem_append_left _ (ih inside)
          · exact List.mem_append_left _ (ih inside)
      | leave other =>
          rw [membersAfter, Table.find?_erase] at inside
          split at inside
          · contradiction
          · exact List.mem_append_left _ (ih inside)
      | _ => exact List.mem_append_left _ (ih inside)

/-- What is stored under the player id of a client is told by its last move, if everybody who
entered is of the same hall. -/
theorem find?_members (furnished : Furnished w) {c : ClientRef} {s : Standing}
    (known : w.standing? c = some s) {tasks : List RoomTask}
    (entrants : ∀ d, .enter d ∈ tasks → ∃ t, w.standing? d = some t ∧ t.hall = s.hall) :
    (tasks.foldl w.membersAfter {}).find? s.sessionId =
      if lastMove? c s.sessionId tasks = some (.enter c) then some c else none := by
  induction tasks using List.reverseRecOn with
  | nil => rfl
  | append_singleton tasks task ih =>
      have before := ih fun d entered => entrants d (List.mem_append_left _ entered)
      have aside (other : task.concerns c s.sessionId = false) :
          lastMove? c s.sessionId (tasks ++ [task]) = lastMove? c s.sessionId tasks := by
        apply lastMove?_append_of_other
        intro t mem
        rw [List.mem_singleton.1 mem]
        exact other
      rw [List.foldl_append, List.foldl_cons, List.foldl_nil]
      cases task with
      | enter d =>
          obtain ⟨t, there, hall⟩ := entrants d (List.mem_append_right _ List.mem_cons_self)
          rw [membersAfter, there, Table.find?_insert]
          by_cases same : d = c
          · subst same
            obtain rfl := Option.some.inj (there.symm.trans known)
            have concerned : (RoomTask.enter d).concerns d t.sessionId = true := decide_eq_true rfl
            rw [if_pos rfl, lastMove?_concat concerned, if_pos rfl]
          · have different : s.sessionId ≠ t.sessionId := fun sessionId =>
              same (furnished.distinct d c t s there known hall sessionId.symm)
            rw [if_neg different, aside (decide_eq_false same)]
            exact before
      | leave other =>
          rw [membersAfter, Table.find?_erase]
          by_cases same : s.sessionId = other
          · have concerned : (RoomTask.leave other).concerns c s.sessionId = true :=
              decide_eq_true same.symm
            rw [if_pos same, lastMove?_concat concerned, if_neg]
            exact fun wrong => RoomTask.noConfusion (Option.some.inj wrong)
          · rw [if_neg same, aside (decide_eq_false (Ne.symm same))]
            exact before
      | say playerId message =>
          rw [aside rfl]
          exact before
      | announce =>
          rw [aside rfl]
          exact before
      | tidy =>
          rw [aside rfl]
          exact before

/-! ## Agreement along a course -/

/-- Clients and rooms agree about who is where, once these tasks have been performed. -/
structure Agrees (past : List (RoomRef × RoomTask)) (w : World) : Prop where
  /-- Between two jobs of its session, the last that was pushed for a client to the room in which
  it is, by its own account, is an entrance. -/
  seated : ∀ (c : ClientRef) (client : Client) (r : RoomRef), w.client? c = some client →
    w.executing client.queue = [] → client.room = some r →
    lastMove? c client.sessionId (history past w r) = some (.enter c)
  /-- For every other room it is a departure, or there is nothing. -/
  unseated : ∀ (c : ClientRef) (client : Client) (r : RoomRef), w.client? c = some client →
    w.executing client.queue = [] → client.room ≠ some r →
    lastMove? c client.sessionId (history past w r) = none ∨
      lastMove? c client.sessionId (history past w r) = some (.leave client.sessionId)
  /-- Once all queues are empty, the members of a room are the clients that are in it by their
  own account. -/
  members : (∀ q queue, w.pool.queue? q = some queue → queue.outstanding = []) →
    ∀ (c : ClientRef) (client : Client) (r : RoomRef) (room : Room), w.client? c = some client →
      w.room? r = some room →
      (room.members.find? client.sessionId = some c ↔ client.room = some r)
  /-- A client is a member of one room at most then. -/
  one_room : (∀ q queue, w.pool.queue? q = some queue → queue.outstanding = []) →
    ∀ (c : ClientRef) (client : Client) (r s : RoomRef) (room other : Room),
      w.client? c = some client → w.room? r = some room → w.room? s = some other →
      room.members.find? client.sessionId = some c →
      other.members.find? client.sessionId = some c → r = s
  /-- Nobody enters a room who is a member of it. -/
  fresh : ∀ e r c, w.performs? e = some (r, .enter c) →
    ∃ room client, w.room? r = some room ∧ w.client? c = some client ∧
      room.members.find? client.sessionId = none

theorem Agreed.lastMove_iff (h : Agreed past w) {c : ClientRef} {client : Client}
    (found : w.client? c = some client) (between : w.executing client.queue = []) (r : RoomRef) :
    lastMove? c client.sessionId (history past w r) = some (.enter c) ↔ client.room = some r := by
  obtain ⟨seats, seated, attends⟩ := h.seats
  have known := standing?_of_client found
  have here : seats c = client.room := by
    have account : w.seat? c = client.room := by
      rw [seat?, found]
      rfl
    rw [← account]
    apply attends.settled c _ known
    intro task job
    rw [performing, show w.executing client.standing.queue = [] from between] at job
    contradiction
  constructor
  · intro inside
    obtain ⟨t, there, inHall⟩ := seated.entrant r c (enter_mem_of_lastMove? inside)
    obtain rfl := Option.some.inj (there.symm.trans known)
    exact here.symm.trans ((seated.lastMove c _ r known inHall).1 inside)
  · intro there
    have asked := here.trans there
    obtain ⟨s, room, hs, hroom, hall⟩ := seated.seat c r asked
    obtain rfl := Option.some.inj (hs.symm.trans known)
    refine (seated.lastMove c _ r known fun other hother => ?_).2 asked
    obtain rfl := Option.some.inj (hroom.symm.trans hother)
    exact hall

/-- The members of a room of its own hall tell whether a client's entrance was performed last. -/
theorem Agreed.find?_members (h : Agreed past w) {c : ClientRef} {client : Client} {r : RoomRef}
    {room : Room} (found : w.client? c = some client) (there : w.room? r = some room)
    (hall : room.hall = client.hall) :
    room.members.find? client.sessionId =
      if lastMove? c client.sessionId (tasksOf r past) = some (.enter c) then some c else none := by
  obtain ⟨seats, seated, -⟩ := h.seats
  rw [h.inOrder.orderly.members r room there]
  apply World.find?_members h.inOrder.furnished (standing?_of_client found)
  intro d entered
  obtain ⟨t, known, inHall⟩ := seated.entrant r d (List.mem_append_left _ entered)
  exact ⟨t, known, (inHall room there).symm.trans hall⟩

/-- Who has entered a room is of its hall. -/
theorem Agreed.hall_of_entered (h : Agreed past w) {c : ClientRef} {client : Client} {r : RoomRef}
    {room : Room} (found : w.client? c = some client) (there : w.room? r = some room)
    (entered : .enter c ∈ history past w r) : room.hall = client.hall := by
  obtain ⟨seats, seated, -⟩ := h.seats
  obtain ⟨s, known, inHall⟩ := seated.entrant r c entered
  obtain rfl := Option.some.inj (known.symm.trans (standing?_of_client found))
  exact inHall room there

/-- Once nothing is left to do, the members are told by the clients. -/
theorem Agreed.members_iff (h : Agreed past w)
    (empty : ∀ q queue, w.pool.queue? q = some queue → queue.outstanding = []) {c : ClientRef}
    {client : Client} {r : RoomRef} {room : Room} (found : w.client? c = some client)
    (there : w.room? r = some room) :
    room.members.find? client.sessionId = some c ↔ client.room = some r := by
  have nothing : history past w r = tasksOf r past := by
    obtain ⟨agenda, owes, queued⟩ := h.inOrder.furnished.queued_eq there
    obtain ⟨queue, hqueue, done⟩ := Option.map_eq_some_iff.1 owes
    rw [empty _ queue hqueue, List.filterMap_nil] at done
    rw [history, queued, ← done, tasksOf_nil, List.append_nil]
  have between : w.executing client.queue = [] := by
    obtain ⟨queue, hqueue, -⟩ := Option.map_eq_some_iff.1
      (h.inOrder.furnished.queueOfClient c _ (standing?_of_client found))
    have none_left := empty _ queue hqueue
    rw [Jobs.Queue.outstanding, List.append_eq_nil_iff] at none_left
    exact (executing_of_queue hqueue).trans none_left.1
  rw [← h.lastMove_iff found between r, nothing]
  constructor
  · intro inside
    have performed := h.inOrder.orderly.members r room there
    rw [performed] at inside
    have entered : .enter c ∈ history past w r := nothing ▸ enter_mem_of_find? inside
    have told := h.find?_members found there (h.hall_of_entered found there entered)
    rw [performed, inside] at told
    by_contra outside
    rw [if_neg outside] at told
    contradiction
  · intro inside
    have entered : .enter c ∈ history past w r := nothing ▸ enter_mem_of_lastMove? inside
    rw [h.find?_members found there (h.hall_of_entered found there entered), if_pos inside]

/-- An entrance that is about to be performed is one of somebody outside. -/
theorem Agreed.outside_of_performs? (h : Agreed past w) {e : Event} {r : RoomRef} {c : ClientRef}
    (performs : w.performs? e = some (r, .enter c)) :
    ∃ room client, w.room? r = some room ∧ w.client? c = some client ∧
      room.members.find? client.sessionId = none := by
  obtain ⟨room, rest, there, queued⟩ := h.inOrder.queued_of_performs? performs
  have split : history past w r = tasksOf r past ++ .enter c :: rest := by rw [history, queued]
  have entered : .enter c ∈ history past w r :=
    split ▸ List.mem_append_right _ List.mem_cons_self
  obtain ⟨seats, seated, -⟩ := h.seats
  obtain ⟨s, known, -⟩ := seated.entrant r c entered
  obtain ⟨client, found, rfl⟩ := Option.map_eq_some_iff.1 known
  refine ⟨room, client, there, found, ?_⟩
  have outside := seated.outside r c _ (tasksOf r past) rest known split
  rw [h.find?_members found there (h.hall_of_entered found there entered)]
  exact if_neg outside

/-- In every course of events in which clients are asked in and out by the jobs of their sessions
alone, clients and rooms agree. -/
theorem agrees_of_course (defaultRooms : List String) (events : List Event) (w : World)
    (indirect : ∀ e ∈ events, e.isDirect = false)
    (course : (opened defaultRooms).afterAll? events = some w) :
    Agrees ((opened defaultRooms).performed events) w := by
  have agreed := agreed_of_opened indirect course
  exact {
    seated := fun c client r found between there =>
      (agreed.lastMove_iff found between r).2 there
    unseated := fun c client r found between elsewhere =>
      lastMove?_of_ne_enter fun inside => elsewhere ((agreed.lastMove_iff found between r).1 inside)
    members := fun empty c client r room => agreed.members_iff empty
    one_room := fun empty c client r s room other found hr hs inR inS => by
      have here := (agreed.members_iff empty found hr).1 inR
      have there := (agreed.members_iff empty found hs).1 inS
      exact Option.some.inj (here.symm.trans there)
    fresh := fun e r c performs => agreed.outside_of_performs? performs }

/-- A client comes into the default room and moves on at once; the entrances and the departure are
performed after that. -/
def movingOn : List Event :=
  [.room 0 "lobby", .accept 0, .start 0 true, .arrive 0, .arrive 0, .arrive 0, .arrive 0,
    .packet 0 (.json "\x7b\"Type\":\"JoinRoom\",\"RoomId\":\"arena\"\x7d")] ++
  List.replicate 14 (.work 1 0) ++ List.replicate 6 (.work 0 0) ++ List.replicate 4 (.work 2 0)

/-- Who has moved on is a member of the new room. -/
theorem agrees_of_course_movingOn :
    ∃ w client room, (opened ["lobby"]).afterAll? movingOn = some w ∧
      (∀ e ∈ movingOn, e.isDirect = false) ∧
      (∀ q queue, w.pool.queue? q = some queue → queue.outstanding = []) ∧
      w.client? 0 = some client ∧ w.room? 1 = some room ∧
      room.members.find? client.sessionId = some 0 := by
  have indirect : ∀ e ∈ movingOn, e.isDirect = false := by decide
  have possible : ((opened ["lobby"]).afterAll? movingOn).isSome := by decide +kernel
  obtain ⟨w, course⟩ := Option.isSome_iff_exists.1 possible
  have settled : ((opened ["lobby"]).afterAll? movingOn).map
      (fun w => (w.pool.queues.all (·.outstanding.isEmpty), (w.room? 1).isSome)) =
        some (true, true) := by
    decide +kernel
  have account : ((opened ["lobby"]).afterAll? movingOn).map
      (fun w => (w.client? 0).map Client.room) = some (some (some 1)) := by
    decide +kernel
  rw [course, Option.map_some] at settled account
  obtain ⟨done, made⟩ := Prod.mk.inj (Option.some.inj settled)
  obtain ⟨room, there⟩ := Option.isSome_iff_exists.1 made
  obtain ⟨client, found, here⟩ := Option.map_eq_some_iff.1 (Option.some.inj account)
  have empty (q : Jobs.QueueRef) (queue : Jobs.Queue Job) (known : w.pool.queue? q = some queue) :
      queue.outstanding = [] :=
    List.isEmpty_iff.1 (List.all_eq_true.1 done queue (List.mem_of_getElem? known))
  have agrees := agrees_of_course ["lobby"] movingOn w indirect course
  exact ⟨w, client, room, course, indirect, empty, found, there,
    (agrees.members empty 0 client 1 room found there).2 here⟩

end World

end ChatHall.Server
