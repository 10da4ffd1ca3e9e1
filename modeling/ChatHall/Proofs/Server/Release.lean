/-
# Everything is released

A client is registered in three places: among the sessions of its hall, by the name
of the queue of its session, and through the rooms that are made for it, with the
names of their queues. What stands in each place is there for somebody: a session for
a client whose end has not been noted, the name of its queue for one that has still to
retire, a room for somebody who minds it. So once all clients have gone and nothing is
left to do, only the default room is left, and the name of its queue.
-/

import ChatHall.Proofs.Server.Punctual
import ChatHall.Proofs.Server.Vacancy
import ChatHall.Server.Service

namespace ChatHall.Server.World

variable {w v : World} {past : List (RoomRef × RoomTask)} {deeds : List Deed} {e : Event}

/-! ## The names of the rooms -/

/-- Every other name is that of the queue of a registered room. -/
def Ascribed (w : World) : Prop :=
  ∀ name, (w.pool.find? name).isSome → (∃ k, name = sessionQueueName k) ∨
    ∃ room, (w.findRoom? 0 room).isSome ∧ name = roomQueueName room

theorem Ascribed.of_eq (h : Ascribed w) (find? : ∀ name, v.pool.find? name = w.pool.find? name)
    (findRoom? : ∀ room, v.findRoom? 0 room = w.findRoom? 0 room) : Ascribed v := by
  intro name named
  rw [find?] at named
  rcases h name named with session | ⟨room, registered, same⟩
  · exact .inl session
  · exact .inr ⟨room, findRoom? room ▸ registered, same⟩

theorem Ascribed.move (h : Ascribed w) (furnished : Furnished w) (move : Move w deeds v)
    (alone : ∀ h, (w.register? h).isSome → h = 0) (hall : (w.register? 0).isSome) :
    Ascribed v := by
  cases move with
  | quiet quiet => exact h.of_eq quiet.find? (quiet.findRoom? 0)
  | openHall defaultRoom =>
      refine h.of_eq (fun _ => rfl) fun room => ?_
      rw [findRoom?_eq, findRoom?_eq, register?_openHall, if_neg]
      intro new
      rw [new, register?_length] at hall
      contradiction
  | makeRoom i asked known absent =>
      obtain rfl := alone i known
      intro name named
      rw [pool_getOrCreateRoom absent, Jobs.Pool.find?_getOrCreate] at named
      have registered (room : String) : (w.getOrCreateRoom 0 asked).1.findRoom? 0 room =
          if 0 = 0 ∧ room = asked then some (w.getOrCreateRoom 0 asked).2
          else w.findRoom? 0 room :=
        findRoom?_getOrCreateRoom known 0 room
      split at named
      · next same =>
          refine .inr ⟨asked, ?_, same⟩
          rw [registered, if_pos ⟨rfl, rfl⟩]
          rfl
      · rcases h name named with session | ⟨room, there, same⟩
        · exact .inl session
        · refine .inr ⟨room, ?_, same⟩
          rw [registered]
          split
          · rfl
          · exact there
  | newClient i hall found =>
      refine h.of_eq (fun name => ?_) fun room => ?_
      · rw [pool_newClient found]
        rfl
      · rw [findRoom?_eq, findRoom?_eq, register?_newClient found]
        split
        · exact Option.bind_map
        · rfl
  | name c client found =>
      obtain ⟨queue, known, hname⟩ := Option.map_eq_some_iff.1
        (furnished.queueOfClient c _ (standing?_of_client found))
      intro name named
      have registered := Jobs.Pool.find?_register known name
      change (Jobs.Pool.find? (w.pool.register client.queue) name).isSome at named
      rw [show client.queue = client.standing.queue from rfl, registered, hname] at named
      split at named
      · next same => exact .inl ⟨_, same⟩
      · exact h name named
  | unname sessionId =>
      intro name named
      have removed := Jobs.Pool.find?_remove (p := w.pool) (sessionQueueName sessionId) name
      change (Jobs.Pool.find? (w.pool.remove _).1 name).isSome at named
      rw [removed] at named
      split at named
      · contradiction
      · exact h name named
  | enter i asked s c =>
      exact h.of_eq (find?_pushToRoom _ s (.enter c)) fun room => findRoom?_pushEnter w s c 0 room
  | push s _ task =>
      exact h.of_eq (find?_pushToRoom w s task) fun room => findRoom?_pushToRoom w s task 0 room
  | strike q s room agenda found =>
      intro name named
      have removed := Jobs.Pool.find?_remove (p := w.pool) (roomQueueName room.name) name
      change (Jobs.Pool.find? (w.pool.remove _).1 name).isSome at named
      rw [removed] at named
      split at named
      · contradiction
      · next other =>
          rcases h name named with session | ⟨kept, there, rfl⟩
          · exact .inl session
          · refine .inr ⟨kept, ?_, rfl⟩
            rw [findRoom?_strike, if_neg]
            · exact there
            · rintro ⟨-, rfl⟩
              exact other rfl
  | run => exact h.of_eq (fun _ => rfl) fun _ => rfl

theorem Ascribed.moves (h : Ascribed w) (furnished : Furnished w) (moves : Moves w deeds v)
    (alone : ∀ h, (v.register? h).isSome → h = 0) (hall : (w.register? 0).isSome) :
    Ascribed v := by
  induction moves with
  | refl => exact h
  | step moves last ih =>
      have before := last.extends.alone alone
      obtain ⟨register, known⟩ := Option.isSome_iff_exists.1 hall
      obtain ⟨after, there, -⟩ := moves.extends.register 0 register known
      exact (ih before).move (furnished.moves moves) last before (Option.isSome_of_eq_some there)

/-! ## Along a course -/

/-- A hall with its default room, as a server starts with it. -/
def inaugurated (defaultRoom : String) : World :=
  ((opened [defaultRoom]).getOrCreateRoom 0 defaultRoom).1

theorem world_start (settings : Net.Settings) (defaultRoom : String) :
    (Service.start settings defaultRoom).world = inaugurated defaultRoom := rfl

/-- What holds in a hall whose clients keep to the order of their hooks. -/
structure Hosted (defaultRoom : String) (past : List (RoomRef × RoomTask)) (w : World) : Prop where
  tended : Tended past w
  apart : Apart w
  punctual : Punctual w
  enlisted : Enlisted w
  named : Named w
  ascribed : Ascribed w
  keyed : Keyed w
  watchful : Watchful w
  lobby : ∃ register, w.register? 0 = some register ∧ register.defaultRoom = defaultRoom ∧
    w.findRoom? 0 defaultRoom = some 0

theorem Hosted.after {defaultRoom : String} (h : Hosted defaultRoom past w)
    (inside : e.isOutside = false) (sequence : inSequence w e = true)
    (after : w.after? e = some v) : Hosted defaultRoom (past ++ (w.performs? e).toList) v := by
  have inOrder := h.tended.agreed.inOrder
  obtain ⟨deeds, change⟩ := change_of_after? inOrder.furnished after
  have stir := h.tended.stir after
  have alone (k : HallRef) (there : (v.register? k).isSome) : k = 0 :=
    h.keyed.alone k ((h.tended.housed inside after).hall k there)
  obtain ⟨register, hall, default, found⟩ := h.lobby
  obtain ⟨later, hlater, same, -⟩ := change.moves.extends.register 0 register hall
  exact {
    tended := h.tended.after (Event.isDirect_eq_false inside) after
    apart := h.apart.stir (h.punctual.isTimely sequence stir) stir
    punctual := h.punctual.stir h.tended sequence stir
    enlisted := h.enlisted.stir h.punctual.bides stir
    named := h.named.stir h.punctual stir
    ascribed := h.ascribed.moves inOrder.furnished change.moves alone (Option.isSome_of_eq_some hall)
    keyed := h.keyed.moves inOrder.furnished change.moves alone
    watchful := h.watchful.after h.tended inside after
    lobby := by
      subst default
      exact ⟨later, hlater, same, inOrder.findRoom?_defaultRoom change.moves hall found⟩ }

theorem hosted_inaugurated (defaultRoom : String) :
    Hosted defaultRoom [] (inaugurated defaultRoom) := by
  have hall := register?_opened defaultRoom 0
  rw [if_pos rfl] at hall
  have known : ((opened [defaultRoom]).register? 0).isSome := Option.isSome_of_eq_some hall
  have absent : (opened [defaultRoom]).findRoom? 0 defaultRoom = none := rfl
  have tended : Tended [] (inaugurated defaultRoom) := by
    have after : (opened [defaultRoom]).after? (.room 0 defaultRoom) =
        some (inaugurated defaultRoom) := rfl
    exact (tended_opened [defaultRoom]).after rfl after
  have steady : Steady empty (inaugurated defaultRoom) :=
    (steady_opened [defaultRoom]).trans (steady_getOrCreateRoom _ 0 defaultRoom)
  have none_there (c : ClientRef) : (inaugurated defaultRoom).guest? c = none := steady.guest? c
  have moves : Moves (opened [defaultRoom]) [] (inaugurated defaultRoom) :=
    moves_getOrCreateRoom known defaultRoom
  have furnished := (inOrder_opened [defaultRoom]).furnished
  have register (k : HallRef) : (inaugurated defaultRoom).register? k =
      if k = 0 then some ⟨defaultRoom, ({} : Table String RoomRef).insert defaultRoom 0, 1⟩
      else none := by
    have made := register?_getOrCreateRoom absent k
    rw [register?_opened] at made
    refine made.trans ?_
    by_cases here : k = 0
    · rw [if_pos here, if_pos here.symm, if_pos here]
      rfl
    · rw [if_neg here, if_neg (Ne.symm here), if_neg here]
  have alone (k : HallRef) (there : ((inaugurated defaultRoom).register? k).isSome) : k = 0 := by
    rw [register] at there
    split at there
    · assumption
    · contradiction
  exact {
    tended
    apart := fun c g found => by
      rw [none_there] at found
      contradiction
    punctual := by
      refine ⟨fun c g found => ?_, fun c g found => ?_⟩ <;>
      · rw [none_there] at found
        contradiction
    enlisted := fun k sessionId c listed => by
      rw [steady.session?] at listed
      contradiction
    named := fun k named => by
      rw [steady.named] at named
      contradiction
    ascribed := by
      have nothing : Ascribed (opened [defaultRoom]) := fun name named => nomatch named
      exact nothing.moves furnished moves alone known
    keyed := (keyed_opened defaultRoom).moves furnished moves alone
    watchful := by
      refine ⟨fun q c r name asked duty => ?_, fun r room now found hnow there other => ?_⟩
      · rw [steady.duties] at duty
        contradiction
      · have here := alone _ (Option.isSome_of_eq_some hnow)
        rw [findRoom?_eq, register, here] at there
        rw [register, here] at hnow
        obtain rfl := Option.some.inj hnow
        have listed : (({} : Table String RoomRef).insert defaultRoom 0).find? room.name = some r :=
          there
        rw [Table.find?_insert, if_neg other] at listed
        contradiction
    lobby := by
      refine ⟨_, (register 0).trans (if_pos rfl), rfl, ?_⟩
      rw [findRoom?_eq, register, if_pos rfl, Option.bind_some, Table.find?_insert, if_pos rfl] }

/-! ## What is left in the end -/

/-- Nothing is left of the clients: no session, nobody in a room or about to be, no room but the
default one, and no name of a queue but that of its queue. -/
structure Released (defaultRoom : String) (w : World) : Prop where
  sessions : ∀ h hall, w.hall? h = some hall → hall.sessions.entries = []
  rooms : ∀ r room, w.room? r = some room → room.members.entries = [] ∧ room.pendingEnters = 0
  registered : ∃ hall lobby, w.hall? 0 = some hall ∧ w.room? 0 = some lobby ∧
    hall.rooms.entries = [(defaultRoom, 0)] ∧
    w.pool.names.entries = [(roomQueueName defaultRoom, lobby.queue)]

section Over

variable {defaultRoom : String} (h : Hosted defaultRoom past w)
variable (gone : ∀ c client, w.client? c = some client →
  client.arrival = .unnoticed ∨ client.departure = .seenOff)
variable (empty : ∀ q queue, w.pool.queue? q = some queue → queue.outstanding = [])

include empty in
theorem queued_eq_nil (r : RoomRef) : w.queued r = [] := by
  rw [queued]
  cases w.room? r with
  | none => rfl
  | some room =>
      rw [Option.bind_some, agenda?]
      cases known : w.pool.queue? room.queue with
      | none => rfl
      | some queue =>
          rw [Option.map_some, Option.map_some, empty _ queue known]
          rfl

include h gone

theorem Hosted.session?_ne_some (k : HallRef) (sessionId : Nat) (c : ClientRef) :
    w.session? k sessionId ≠ some c := by
  intro listed
  obtain ⟨g, found, -, -, came, present⟩ := h.enlisted k sessionId c listed
  obtain ⟨client, known, rfl⟩ := Option.map_eq_some_iff.1 found
  rcases gone c client known with fresh | seenOff
  · rw [show client.guest.arrival = .unnoticed from fresh] at came
    contradiction
  · rw [show client.guest.departure = .seenOff from seenOff] at present
    contradiction

include empty

/-- Whoever has gone is in no room, and so is who has not come. -/
theorem Hosted.nowhere {c : ClientRef} {client : Client} (found : w.client? c = some client) :
    client.room = none := by
  rcases gone c client found with fresh | seenOff
  · refine (h.punctual.idle c client.guest (guest?_of_client found) fun greeted => ?_).1
    rw [show client.guest.arrival = .unnoticed from fresh] at greeted
    contradiction
  · exact h.apart.nowhere found seenOff fun queue => empty _ queue

/-- Nobody minds a room that is not the default one. -/
theorem Hosted.eq_defaultRoom {name : String} {r : RoomRef}
    (registered : w.findRoom? 0 name = some r) : name = defaultRoom := by
  obtain ⟨room, there, hall, rfl⟩ := h.tended.agreed.inOrder.furnished.registered 0 name r registered
  obtain ⟨register, hregister, rfl, -⟩ := h.lobby
  by_contra other
  rw [← hall] at registered hregister
  cases h.watchful.watched r room register there hregister registered other with
  | minded minded =>
      cases minded with
      | seated c here =>
          obtain ⟨client, found, seated⟩ := Option.bind_eq_some_iff.1 here
          rw [h.nowhere gone empty found] at seated
          contradiction
      | coming q c name asked duty =>
          rw [duties_eq_nil (empty _)] at duty
          contradiction
      | parting q c n duty =>
          rw [duties_eq_nil (empty _)] at duty
          contradiction
  | asked before later split =>
      rw [queued_eq_nil empty] at split
      exact absurd split.symm (List.append_ne_nil_of_right_ne_nil _ (List.cons_ne_nil _ _))

theorem Hosted.find?_sessionQueueName (k : Nat) : w.pool.find? (sessionQueueName k) = none := by
  by_contra named
  obtain ⟨c, g, found, -, came, retires⟩ := h.named k (Option.isSome_iff_ne_none.2 named)
  obtain ⟨client, known, rfl⟩ := Option.map_eq_some_iff.1 found
  rcases gone c client known with fresh | seenOff
  · rw [show client.guest.arrival = .unnoticed from fresh] at came
    contradiction
  · obtain ⟨t, duty, -⟩ := retires seenOff
    rw [duties_eq_nil (empty _)] at duty
    contradiction

theorem Hosted.released : Released defaultRoom w where
  sessions k hall found := by
    apply Table.entries_eq_nil_of_find?
    intro sessionId c listed
    exact h.session?_ne_some gone k sessionId c (Option.bind_eq_some_iff.2 ⟨hall, found, listed⟩)
  rooms r room there := by
    have agreed := h.tended.agreed
    refine ⟨Table.entries_eq_nil_of_find? fun playerId c inside => ?_, ?_⟩
    · have performed := agreed.inOrder.orderly.members r room there
      obtain ⟨s, known, -⟩ := sessionId_of_find? (performed ▸ inside)
      obtain ⟨client, found, -⟩ := Option.map_eq_some_iff.1 known
      exact agreed.not_member empty found (h.nowhere gone empty found) there playerId inside
    · rw [agreed.inOrder.orderly.pending r room there, queued_eq_nil empty]
      rfl
  registered := by
    obtain ⟨register, hregister, default, found⟩ := h.lobby
    obtain ⟨hall, hhall, -⟩ := Option.map_eq_some_iff.1 hregister
    obtain ⟨lobby, there, -⟩ :=
      h.tended.agreed.inOrder.furnished.registered 0 defaultRoom 0 found
    have look (name : String) : w.findRoom? 0 name = hall.rooms.find? name := by
      rw [findRoom?, hhall]
      rfl
    refine ⟨hall, lobby, hhall, there, ?_, ?_⟩
    · apply Table.entries_eq_singleton_of_find? (look defaultRoom ▸ found)
      intro name r registered
      exact h.eq_defaultRoom gone empty ((look name).trans registered)
    · apply Table.entries_eq_singleton_of_find? (h.keyed.key defaultRoom 0 lobby found there)
      intro name q named
      rcases h.ascribed name (Option.isSome_of_eq_some named) with ⟨k, rfl⟩ | ⟨room, registered, rfl⟩
      · have dropped := named.symm.trans (h.find?_sessionQueueName gone empty k)
        contradiction
      · obtain ⟨r, registered⟩ := Option.isSome_iff_exists.1 registered
        rw [h.eq_defaultRoom gone empty registered]

end Over

/-- In every course of events of a hall that starts with its default room, and whose sessions each
pass on their coming, then packets, then their end: once all that have come have gone, and all
queues are empty, everything is released. -/
theorem released_of_course (defaultRoom : String) (events : List Event) (w : World)
    (inside : ∀ e ∈ events, e.isOutside = false)
    (sequence : along inSequence (inaugurated defaultRoom) events = true)
    (course : (inaugurated defaultRoom).afterAll? events = some w)
    (gone : ∀ c client, w.client? c = some client →
      client.arrival = .unnoticed ∨ client.departure = .seenOff)
    (empty : ∀ q queue, w.pool.queue? q = some queue → queue.outstanding = []) :
    Released defaultRoom w := by
  have hosted := course_induction_along (P := Hosted defaultRoom)
    (fun past w e v mem sequence h after => h.after (inside e mem) sequence after)
    (hosted_inaugurated defaultRoom) sequence course
  exact hosted.released gone empty

/-- Two clients move on to the same room. The first leaves it while the second is about to enter, so
its clean-up finds the room taken; that of the second gives it up. -/
def takingTurns : List Event :=
  let joins : Wire.Packet := .json "\x7b\"Type\":\"JoinRoom\",\"RoomId\":\"arena\"\x7d"
  [.accept 0, .start 0 true, .arrive 0, .arrive 0, .arrive 0, .arrive 0,
    .accept 0, .start 0 true, .arrive 1, .arrive 1, .arrive 1, .arrive 1,
    .packet 0 joins, .packet 1 joins] ++
  List.replicate 14 (.work 1 0) ++ [.depart 0, .depart 0, .depart 0] ++
  List.replicate 7 (.work 1 0) ++ List.replicate 14 (.work 2 0) ++ List.replicate 10 (.work 3 0) ++
  [.depart 1, .depart 1, .depart 1] ++ List.replicate 7 (.work 2 0) ++
  List.replicate 6 (.work 3 0) ++ List.replicate 10 (.work 0 0)

/-- Of two clients and their room nothing is left. -/
theorem released_of_course_takingTurns :
    ∃ w, (inaugurated "lobby").afterAll? takingTurns = some w ∧
      (∀ e ∈ takingTurns, e.isOutside = false) ∧
      along inSequence (inaugurated "lobby") takingTurns = true ∧
      (∀ c client, w.client? c = some client →
        client.arrival = .unnoticed ∨ client.departure = .seenOff) ∧
      (∀ q queue, w.pool.queue? q = some queue → queue.outstanding = []) ∧
      w.state.clients.length = 2 ∧ w.state.rooms.length = 2 ∧ Released "lobby" w := by
  have inside : ∀ e ∈ takingTurns, e.isOutside = false := by decide
  have sequence : along inSequence (inaugurated "lobby") takingTurns = true := by decide +kernel
  have checked : ((inaugurated "lobby").afterAll? takingTurns).any (fun w =>
      w.pool.queues.all (·.outstanding.isEmpty) &&
        w.state.clients.all (fun client => client.departure = .seenOff) &&
        w.state.clients.length = 2 && w.state.rooms.length = 2) = true := by
    decide +kernel
  obtain ⟨w, course, checked⟩ := (Option.any_eq_true ..).1 checked
  simp only [Bool.and_eq_true, decide_eq_true_eq] at checked
  obtain ⟨⟨⟨done, all⟩, clients⟩, rooms⟩ := checked
  have empty := outstanding_eq_nil_of_all done
  have gone (c : ClientRef) (client : Client) (found : w.client? c = some client) :
      client.arrival = .unnoticed ∨ client.departure = .seenOff :=
    .inr (of_decide_eq_true (List.all_eq_true.1 all client (List.mem_of_getElem? found)))
  exact ⟨w, course, inside, sequence, gone, empty, clients, rooms,
    released_of_course "lobby" takingTurns w inside sequence course gone empty⟩

end ChatHall.Server.World
