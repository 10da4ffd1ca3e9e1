/-
# The farewell

The last job of a client leaves its room and gives the queue of its session up. It
is pushed when the end of the connection is taken note of, by whoever disconnects
first, and nothing keeps the jobs of other threads from being pushed behind it: a
packet that is being handed over, or the welcome of a client whose coming is still
being taken note of. Nor does any job ask whether its client is still connected.
So a client stays out of all rooms after its farewell if no job that may put it
into one is pushed behind, and otherwise it may come back for good.
-/

import ChatHall.Proofs.Server.Membership
import ChatHall.Proofs.Server.Stir

namespace ChatHall.Server.World

variable {w v u : World} {past : List (RoomRef × RoomTask)} {c d : ClientRef}

/-! ## Behind the farewell -/

/-- A client whose farewell has been pushed is out of all rooms and stays so, or will be once its
farewell has been performed. -/
inductive Parted (c : ClientRef) (room : Option RoomRef) (duties : List (ClientRef × SessionTask)) :
    Prop
  | gone (nowhere : room = none) (stays : ∀ t, (c, t) ∈ duties → t.mayEnter = false)
  | parting (earlier later : List (ClientRef × SessionTask)) (t : SessionTask)
      (split : duties = earlier ++ (c, t) :: later) (parts : t.isParting = true)
      (stays : ∀ t, (c, t) ∈ later → t.mayEnter = false)

section Parted

variable {room seat : Option RoomRef} {duties rest : List (ClientRef × SessionTask)}
variable {client : Client} {task : SessionTask} {next : Option SessionTask}

theorem Parted.farewell (room : Option RoomRef) (duties : List (ClientRef × SessionTask)) :
    Parted c room (duties ++ [(c, .farewell)]) :=
  .parting duties [] .farewell rfl rfl fun _ => (List.not_mem_nil · |>.elim)

/-- A job is pushed behind. -/
theorem Parted.call (h : Parted c room duties) {called : Option SessionTask}
    (stays : d = c → ∀ t ∈ called, t.mayEnter = false) :
    Parted c room (duties ++ called.toList.map (d, ·)) := by
  have new {t : SessionTask} (mem : (c, t) ∈ called.toList.map (d, ·)) : t.mayEnter = false := by
    obtain ⟨t', pushed, same⟩ := List.mem_map.1 mem
    obtain ⟨own, rfl⟩ := Prod.mk.inj same
    exact stays own t' (Option.mem_toList.1 pushed)
  cases h with
  | gone nowhere none_enters =>
      refine .gone nowhere fun t mem => ?_
      rcases List.mem_append.1 mem with old | pushed
      · exact none_enters t old
      · exact new pushed
  | parting earlier later t split parts none_enters =>
      refine .parting earlier (later ++ called.toList.map (d, ·)) t ?_ parts fun t' mem => ?_
      · rw [split, List.append_assoc, List.cons_append]
      · rcases List.mem_append.1 mem with old | pushed
        · exact none_enters t' old
        · exact new pushed

/-- A job of somebody else goes on or ends. -/
theorem Parted.pass (h : Parted c room ((d, task) :: rest)) (other : d ≠ c) :
    Parted c room (next.toList.map (d, ·) ++ rest) := by
  cases h with
  | gone nowhere none_enters =>
      refine .gone nowhere fun t mem => ?_
      rcases List.mem_append.1 mem with new | old
      · obtain ⟨_, -, same⟩ := List.mem_map.1 new
        exact absurd (Prod.mk.inj same).1 other
      · exact none_enters t (List.mem_cons_of_mem _ old)
  | parting earlier later t split parts none_enters =>
      cases earlier with
      | nil =>
          obtain ⟨same, -⟩ := List.cons.inj split
          exact absurd (Prod.mk.inj same).1 other
      | cons e earlier =>
          obtain ⟨-, rfl⟩ := List.cons.inj split
          exact .parting (next.toList.map (d, ·) ++ earlier) later t
            (List.append_assoc _ _ _).symm parts none_enters

/-- A stage that parts is followed by another one, or the client has no seat then. -/
theorem Errand.isParting (errand : Errand w c client task u next)
    (sits : Errand.Seat task client.room seat) (parts : task.isParting = true) :
    (∃ t, next = some t ∧ t.isParting = true) ∨
      seat = none ∧ ∀ t ∈ next, t.mayEnter = false := by
  cases errand with
  | begin _ _ _ call murmurs begins =>
      cases begins with
      | part => exact .inl ⟨_, rfl, rfl⟩
      | _ => cases task <;> contradiction
  | leave r n =>
      have enters := SessionTask.enters_of_isParting parts
      cases sits with
      | stays _ _ still => exact .inr ⟨still n rfl, fun t ht => Option.some.inj ht ▸ enters⟩
      | left => exact .inr ⟨rfl, fun t ht => Option.some.inj ht ▸ enters⟩
  | pass n nowhere =>
      have enters := SessionTask.enters_of_isParting parts
      cases sits with
      | stays => exact .inr ⟨nowhere, fun t ht => Option.some.inj ht ▸ enters⟩
      | left => exact .inr ⟨rfl, fun t ht => Option.some.inj ht ▸ enters⟩
  | _ => contradiction

/-- A job of the client itself goes on or ends. -/
theorem Parted.act (errand : Errand w c client task u next)
    (sits : Errand.Seat task client.room seat)
    (h : Parted c client.room ((c, task) :: rest)) :
    Parted c seat (next.toList.map (c, ·) ++ rest) := by
  have goesOn {t : SessionTask} (later : List (ClientRef × SessionTask))
      (follows : ∀ t ∈ next, t.mayEnter = false)
      (none_enters : ∀ t, (c, t) ∈ later → t.mayEnter = false)
      (mem : (c, t) ∈ next.toList.map (c, ·) ++ later) : t.mayEnter = false := by
    rcases List.mem_append.1 mem with new | old
    · obtain ⟨t', ht', same⟩ := List.mem_map.1 new
      obtain ⟨-, rfl⟩ := Prod.mk.inj same
      exact follows t' (Option.mem_toList.1 ht')
    · exact none_enters t old
  cases h with
  | gone nowhere none_enters =>
      have stays := none_enters task List.mem_cons_self
      refine .gone ?_ fun t => goesOn rest (errand.mayEnter stays) fun t mem =>
        none_enters t (List.mem_cons_of_mem _ mem)
      cases sits with
      | stays => exact nowhere
      | left => rfl
      | arrived => contradiction
  | parting earlier later t split parts none_enters =>
      cases earlier with
      | nil =>
          obtain ⟨same, rfl⟩ := List.cons.inj split
          obtain ⟨-, rfl⟩ := Prod.mk.inj same
          rcases errand.isParting sits parts with ⟨t, rfl, parts'⟩ | ⟨nowhere, follows⟩
          · exact .parting [] rest t rfl parts' none_enters
          · exact .gone nowhere fun t => goesOn rest follows none_enters
      | cons e earlier =>
          obtain ⟨-, rfl⟩ := List.cons.inj split
          exact .parting (next.toList.map (c, ·) ++ earlier) later t
            (List.append_assoc _ _ _).symm parts none_enters

end Parted

/-! ## Courses in which nothing is pushed behind a farewell -/

/-- Nobody whose farewell has been pushed is called to a job that may put it into a room. -/
def isTimely (w : World) (e : Event) : Bool :=
  match w.hook? e with
  | some (c, hook) =>
    hook.call?.all (fun task => !task.mayEnter) ||
      (w.guest? c).all fun g => g.departure ≠ .seenOff
  | none => true

/-- Clients and rooms agree, and the links of the clients are as they should be. -/
structure Tended (past : List (RoomRef × RoomTask)) (w : World) : Prop where
  agreed : Agreed past w
  linked : Linked w

theorem Tended.placed (h : Tended past w) (q : Jobs.QueueRef) (c : ClientRef) (task : SessionTask)
    (duty : (c, task) ∈ w.duties q) : ∃ s, w.standing? c = some s ∧ s.queue = q := by
  obtain ⟨seats, -, attends⟩ := h.agreed.seats
  rw [duties_eq] at duty
  exact attends.placed q c task (List.mem_append.1 duty)

theorem Tended.stir (h : Tended past w) {e : Event} (after : w.after? e = some v) :
    Stir w v (w.hook? e) :=
  stir_of_after? h.agreed.inOrder.furnished h.linked h.placed after

theorem Tended.after (h : Tended past w) {e : Event} (indirect : e.isDirect = false)
    (after : w.after? e = some v) : Tended (past ++ (w.performs? e).toList) v :=
  ⟨h.agreed.after indirect after, h.linked.stir (h.stir after)⟩

/-- Whoever has been seen off has parted. -/
def Apart (w : World) : Prop :=
  ∀ c g, w.guest? c = some g → g.departure = .seenOff →
    Parted c g.room (w.duties g.standing.queue)

/-- Every event that pushes nothing behind a farewell keeps those apart who have parted. -/
theorem Apart.stir (h : Apart w) {e : Event} (timely : isTimely w e = true)
    (stir : Stir w v (w.hook? e)) : Apart v := by
  intro c g found gone
  generalize hhook : w.hook? e = hook at stir
  cases stir with
  | steady same =>
      rw [same.guest?] at found
      rw [same.duties]
      exact h c g found gone
  | comes i comes =>
      obtain ⟨s, -, guests⟩ := comes.guest?
      rw [guests] at found
      rw [comes.duties]
      split at found
      · obtain rfl := Option.some.inj found
        contradiction
      · exact h c g found gone
  | lives d g' hook lives =>
      rw [lives.guest?] at found
      rw [lives.duties]
      split at found
      · next own =>
          subst own
          obtain rfl := Option.some.inj found
          rw [Guest.room_after, Guest.standing_after, if_pos rfl]
          rcases Guest.seenOff_after gone with already | rfl
          · refine (h c g' lives.found already).call fun _ t calls => ?_
            rw [isTimely, hhook] at timely
            dsimp only at timely
            rw [lives.found, Option.mem_def.1 calls] at timely
            simpa [already] using timely
          · exact Parted.farewell _ _
      · next other =>
          have before := h c g found gone
          split
          · exact before.call fun same => absurd same.symm other
          · exact before
  | acts d client task next acts =>
      obtain ⟨seat, sits, guests⟩ := acts.guest?
      obtain ⟨x, errand, -⟩ := acts.errand
      have busy : w.duties client.queue = (d, task) :: w.awaiting client.queue := by
        rw [duties_eq, acts.busy]
        rfl
      rw [guests] at found
      rw [acts.duties]
      split at found
      · next own =>
          subst own
          obtain rfl := Option.some.inj found
          have before := h c client.guest (guest?_of_client acts.found) gone
          rw [show client.guest.standing.queue = client.queue from rfl, busy] at before
          exact (if_pos rfl) ▸ Parted.act errand sits before
      · next other =>
          have before := h c g found gone
          split
          · next same =>
              rw [← same, busy] at before
              rw [← same]
              exact before.pass (Ne.symm other)
          · exact before

theorem steady_opened (defaultRooms : List String) : Steady empty (opened defaultRooms) := by
  have all (w : World) (h : Steady empty w) :
      Steady empty (defaultRooms.foldl (fun w defaultRoom => (w.openHall defaultRoom).1) w) := by
    induction defaultRooms generalizing w with
    | nil => exact h
    | cons defaultRoom later ih => exact ih _ (h.trans (steady_openHall w defaultRoom))
  exact all empty (Steady.refl empty)

theorem guest?_opened (defaultRooms : List String) (c : ClientRef) :
    (opened defaultRooms).guest? c = none := (steady_opened defaultRooms).guest? c

theorem tended_opened (defaultRooms : List String) : Tended [] (opened defaultRooms) where
  agreed := agreed_opened defaultRooms
  linked := by
    refine ⟨fun c g found => ?_, fun h c held => ?_⟩
    · rw [guest?_opened] at found
      contradiction
    · exact nomatch (steady_opened defaultRooms).inHand? h c held

/-- Who is a member of a room is one under its own player id. -/
theorem sessionId_of_find? {tasks : List RoomTask} {playerId : Nat}
    (inside : (tasks.foldl w.membersAfter {}).find? playerId = some c) :
    ∃ s, w.standing? c = some s ∧ s.sessionId = playerId := by
  induction tasks using List.reverseRecOn with
  | nil => contradiction
  | append_singleton tasks task ih =>
      rw [List.foldl_append, List.foldl_cons, List.foldl_nil] at inside
      cases task with
      | enter d =>
          rw [membersAfter] at inside
          split at inside
          · next s known =>
              rw [Table.find?_insert] at inside
              split at inside
              · next same =>
                  obtain rfl := Option.some.inj inside
                  exact ⟨s, known, same.symm⟩
              · exact ih inside
          · exact ih inside
      | leave other =>
          rw [membersAfter, Table.find?_erase] at inside
          split at inside
          · contradiction
          · exact ih inside
      | _ => exact ih inside

/-- A client that is nowhere by its own account is a member of no room once nothing is left to
do. -/
theorem Agreed.not_member (h : Agreed past w)
    (empty : ∀ q queue, w.pool.queue? q = some queue → queue.outstanding = []) {client : Client}
    (found : w.client? c = some client) (nowhere : client.room = none) {r : RoomRef} {room : Room}
    (there : w.room? r = some room) (playerId : Nat) : room.members.find? playerId ≠ some c := by
  intro inside
  have performed := h.inOrder.orderly.members r room there
  obtain ⟨s, known, rfl⟩ := sessionId_of_find? (performed ▸ inside)
  obtain rfl := Option.some.inj ((standing?_of_client found).symm.trans known)
  have seated := (h.members_iff empty found there).1 inside
  rw [nowhere] at seated
  contradiction

theorem outstanding_eq_nil_of_all (done : w.pool.queues.all (·.outstanding.isEmpty) = true)
    (q : Jobs.QueueRef) (queue : Jobs.Queue Job) (found : w.pool.queue? q = some queue) :
    queue.outstanding = [] :=
  List.isEmpty_iff.1 (List.all_eq_true.1 done queue (List.mem_of_getElem? found))

/-- Somebody who has parted and for whom nothing is left to do is nowhere. -/
theorem Apart.nowhere (h : Apart w) {client : Client} (found : w.client? c = some client)
    (gone : client.departure = .seenOff)
    (done : ∀ queue, w.pool.queue? client.queue = some queue → queue.outstanding = []) :
    client.room = none := by
  cases h c client.guest (guest?_of_client found) gone with
  | gone nowhere => exact nowhere
  | parting earlier later t split =>
      rw [show client.guest.standing.queue = client.queue from rfl, duties_eq_nil done] at split
      exact absurd split.symm (List.append_ne_nil_of_right_ne_nil _ (List.cons_ne_nil _ _))

/-- In every course of events in which nothing that may put a client into a room is pushed behind
its farewell, a client is nowhere once the farewell has been pushed and nothing is left to do for
its session; once all queues are empty, it is a member of no room. -/
theorem gone_of_course (defaultRooms : List String) (events : List Event) (w : World)
    (indirect : ∀ e ∈ events, e.isDirect = false)
    (timely : along isTimely (opened defaultRooms) events = true)
    (course : (opened defaultRooms).afterAll? events = some w) (c : ClientRef) (client : Client)
    (found : w.client? c = some client) (seenOff : client.departure = .seenOff)
    (done : ∀ queue, w.pool.queue? client.queue = some queue → queue.outstanding = []) :
    client.room = none ∧
      ((∀ q queue, w.pool.queue? q = some queue → queue.outstanding = []) →
        ∀ r room playerId, w.room? r = some room → room.members.find? playerId ≠ some c) := by
  let P (past : List (RoomRef × RoomTask)) (w : World) : Prop := Tended past w ∧ Apart w
  have start : P [] (opened defaultRooms) := by
    refine ⟨tended_opened defaultRooms, fun c g known gone => ?_⟩
    rw [guest?_opened] at known
    contradiction
  obtain ⟨tended, apart⟩ := course_induction_along (P := P)
    (fun past w e v mem timely h after =>
      ⟨h.1.after (indirect e mem) after, h.2.stir timely (h.1.stir after)⟩) start timely course
  have nowhere := apart.nowhere found seenOff done
  exact ⟨nowhere, fun empty r room playerId there =>
    tended.agreed.not_member empty found nowhere there playerId⟩

/-- A client comes into the default room, moves on, and is disconnected. -/
def goingHome : List Event :=
  [.room 0 "lobby", .accept 0, .start 0 true, .arrive 0, .arrive 0, .arrive 0, .arrive 0,
    .packet 0 (.json "\x7b\"Type\":\"JoinRoom\",\"RoomId\":\"arena\"\x7d"),
    .depart 0, .depart 0, .depart 0] ++
  List.replicate 19 (.work 1 0) ++ List.replicate 8 (.work 2 0) ++ List.replicate 6 (.work 0 0)

/-- Who has gone home is in no room. -/
theorem gone_of_course_goingHome :
    ∃ w client, (opened ["lobby"]).afterAll? goingHome = some w ∧
      (∀ e ∈ goingHome, e.isDirect = false) ∧
      along isTimely (opened ["lobby"]) goingHome = true ∧
      w.client? 0 = some client ∧ client.departure = .seenOff ∧
      (∀ q queue, w.pool.queue? q = some queue → queue.outstanding = []) ∧
      client.room = none ∧
      ∀ r room playerId, w.room? r = some room → room.members.find? playerId ≠ some 0 := by
  have indirect : ∀ e ∈ goingHome, e.isDirect = false := by decide
  have timely : along isTimely (opened ["lobby"]) goingHome = true := by decide +kernel
  have checked : ((opened ["lobby"]).afterAll? goingHome).any (fun w =>
      w.pool.queues.all (·.outstanding.isEmpty) &&
        (w.client? 0).any (·.departure = .seenOff)) = true := by
    decide +kernel
  obtain ⟨w, course, checked⟩ := (Option.any_eq_true ..).1 checked
  obtain ⟨done, gone⟩ := (Bool.and_eq_true ..).mp checked
  obtain ⟨client, found, seenOff⟩ := (Option.any_eq_true ..).1 gone
  have empty := outstanding_eq_nil_of_all done
  have away := gone_of_course ["lobby"] goingHome w indirect timely course 0 client found
    (of_decide_eq_true seenOff) fun queue => empty _ queue
  exact ⟨w, client, course, indirect, timely, found, of_decide_eq_true seenOff, empty, away.1,
    away.2 empty⟩

/-! ## Courses in which something is -/

/-- All queues are empty in the end, and yet a client whose farewell has been performed is in a
room. -/
def Haunts (events : List Event) (c : ClientRef) (r : RoomRef) : Prop :=
  ∃ w client room, (opened ["lobby"]).afterAll? events = some w ∧
    (∀ e ∈ events, e.isDirect = false) ∧
    (∀ q queue, w.pool.queue? q = some queue → queue.outstanding = []) ∧
    w.client? c = some client ∧ client.departure = .seenOff ∧ client.room = some r ∧
    w.room? r = some room ∧ room.members.find? client.sessionId = some c

theorem haunts_of_any {events : List Event} {c : ClientRef} {r : RoomRef}
    (indirect : ∀ e ∈ events, e.isDirect = false)
    (checked : ((opened ["lobby"]).afterAll? events).any (fun w =>
      w.pool.queues.all (·.outstanding.isEmpty) &&
        (w.client? c).any fun client => client.departure = .seenOff && client.room = some r &&
          (w.room? r).any fun room => room.members.find? client.sessionId = some c) = true) :
    Haunts events c r := by
  obtain ⟨w, course, checked⟩ := (Option.any_eq_true ..).1 checked
  obtain ⟨done, inside⟩ := (Bool.and_eq_true ..).mp checked
  obtain ⟨client, found, inside⟩ := (Option.any_eq_true ..).1 inside
  simp only [Bool.and_eq_true, decide_eq_true_eq] at inside
  obtain ⟨⟨seenOff, seated⟩, member⟩ := inside
  obtain ⟨room, there, member⟩ := (Option.any_eq_true ..).1 member
  exact ⟨w, client, room, course, indirect, outstanding_eq_nil_of_all done, found, seenOff, seated,
    there, of_decide_eq_true member⟩

/-- Somebody disconnects a client between two packets of one buffer, the second of which asks for
a room. -/
def lateCommand : List Event :=
  [.room 0 "lobby", .accept 0, .start 0 true, .arrive 0, .arrive 0, .arrive 0, .arrive 0,
    .depart 0, .depart 0, .depart 0,
    .packet 0 (.json "\x7b\"Type\":\"JoinRoom\",\"RoomId\":\"arena\"\x7d")] ++
  List.replicate 18 (.work 1 0) ++ List.replicate 4 (.work 2 0) ++ List.replicate 6 (.work 0 0)

/-- Somebody disconnects a client that is among the sessions and has not been welcomed. -/
def lateWelcome : List Event :=
  [.room 0 "lobby", .accept 0, .start 0 true, .arrive 0, .arrive 0, .arrive 0,
    .depart 0, .depart 0, .depart 0, .arrive 0] ++
  List.replicate 11 (.work 1 0) ++ List.replicate 4 (.work 0 0)

/-- A client may come back after its farewell and stay for good. -/
theorem haunts_lateCommand_lateWelcome : Haunts lateCommand 0 1 ∧ Haunts lateWelcome 0 0 :=
  ⟨haunts_of_any (by decide) (by decide +kernel), haunts_of_any (by decide) (by decide +kernel)⟩

end ChatHall.Server.World
