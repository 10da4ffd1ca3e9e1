/-
# Shutting a hall down

A shutdown stops the hall from accepting connections, looks once which sessions there
are, and disconnects those. A session is among them only when its own task has got that
far, which is after its connection has been accepted and after it has started. So
whoever the shutdown has seen goes, and nobody is left if it has seen everybody; a
connection that is still in hand, or a session that has still to be noted, is missed
and stays for good.
-/

import ChatHall.Proofs.Server.Audience
import ChatHall.Proofs.Server.Release

namespace ChatHall.Server

/-- The hall whose shutdown an event is a step of. -/
def Event.shuts? : Event → Option HallRef
  | stop h | lookAround h | dismiss h => some h
  | _ => none

namespace World

variable {w v m : World} {past : List (RoomRef × RoomTask)} {e : Event} {h : HallRef}
variable {c : ClientRef} {g : Guest}

/-! ## What events do to the door of a hall -/

/-- What an event does to the door of a hall, and what the door was before. -/
inductive Shuts (w : World) (h : HallRef) : Event → Option Door → Prop
  | stays (e : Event) (other : e.shuts? ≠ some h) : Shuts w h e (w.door? h)
  | opens (defaultRoom : String) (absent : w.door? h = none) :
      Shuts w h (.openHall defaultRoom) (some ⟨true, none⟩)
  | stops (dismissing : Option (List ClientRef)) (before : w.door? h = some ⟨true, dismissing⟩) :
      Shuts w h (.stop h) (some ⟨false, dismissing⟩)
  | looks (hall : Hall) (found : w.hall? h = some hall) (before : hall.door = ⟨false, none⟩) :
      Shuts w h (.lookAround h) (some ⟨false, some hall.sessions.values⟩)
  | dismisses (accepting : Bool) (c : ClientRef) (later : List ClientRef)
      (before : w.door? h = some ⟨accepting, some (c :: later)⟩) :
      Shuts w h (.dismiss h) (some ⟨accepting, some later⟩)

theorem Shuts.of_doors (doors : Doors w v) (other : e.shuts? = none) :
    Shuts w h e (v.door? h) := by
  rw [doors h]
  exact .stays e (other ▸ Option.some_ne_none h).symm

theorem state_of_advance? {q : Jobs.QueueRef} {i : Nat}
    (after : Jobs.Realm.advance? perform w q i = some v) :
    v.state = w.state ∨ ∃ job, v.state = (perform q job w).1.state := by
  cases advances_of_advance? after with
  | fetches _ => exact .inl rfl
  | rechecks _ => exact .inl rfl
  | @finishes job _ _ _ _ performed state _ =>
      refine .inr ⟨job, ?_⟩
      rw [performed]
      exact state
  | @continues job _ _ _ performed =>
      refine .inr ⟨job, ?_⟩
      rw [performed]
      rfl

theorem doors_perform (w : World) (q : Jobs.QueueRef) (job : Job) :
    Doors w (perform q job w).1 := by
  cases job with
  | room r task => exact doors_performRoomTask w r task
  | session c task =>
      rw [perform]
      split
      · next client found =>
          obtain ⟨next, errand, -⟩ := errand_performSessionTask w c client task
          exact errand.doors
      · exact Doors.refl w
  | hold gate =>
      rw [perform]
      split
      · exact doors_of_halls rfl
      · exact Doors.refl w

theorem doors_work {q : Jobs.QueueRef} {i : Nat}
    (after : Jobs.Realm.advance? perform w q i = some v) : Doors w v := by
  rcases state_of_advance? after with same | ⟨job, same⟩
  · exact doors_of_halls (congrArg House.halls same)
  · exact (doors_perform w q job).trans (doors_of_halls (congrArg House.halls same))

theorem doors_arrive (after : w.arriveStep? c = some v) : Doors w v := by
  simp only [arriveStep?, Option.bind_eq_bind, Option.bind_eq_some_iff,
    Option.ite_none_left_eq_some] at after
  obtain ⟨client, found, -, after⟩ := after
  split at after
  · exact Option.some.inj after ▸ doors_modifyClient w c _
  · obtain rfl := Option.some.inj after
    rw [registerQueue, found]
    exact doors_of_halls rfl
  · obtain rfl := Option.some.inj after
    rw [enlist, found]
    exact doors_of_modify rfl fun _ => rfl
  · exact Option.some.inj after ▸ (doors_pushToSession w c _).trans (doors_modifyClient _ c _)
  · contradiction

theorem doors_depart (after : w.departStep? c = some v) : Doors w v := by
  simp only [departStep?, Option.bind_eq_bind, Option.bind_eq_some_iff] at after
  obtain ⟨client, found, after⟩ := after
  split at after
  · rw [Option.ite_none_right_eq_some, Option.some.injEq] at after
    exact after.2 ▸ doors_modifyClient w c _
  · obtain rfl := Option.some.inj after
    rw [delist, found]
    exact doors_of_modify rfl fun _ => rfl
  · exact Option.some.inj after ▸ (doors_pushToSession w c _).trans (doors_modifyClient _ c _)
  · contradiction

theorem doors_accept {k : HallRef} (after : w.acceptStep? k = some v) : Doors w v := by
  simp only [acceptStep?, Option.bind_eq_bind, Option.bind_eq_some_iff,
    Option.ite_none_right_eq_some, Option.some.injEq] at after
  obtain ⟨hall, found, -, rfl⟩ := after
  have made : Doors w (w.newClient k).1 := by
    rw [newClient, takeSessionId, found]
    exact doors_of_modify rfl fun _ => rfl
  exact made.trans (doors_modifyHall _ k fun _ => rfl)

theorem doors_start {k : HallRef} {works : Bool} (after : w.startStep? k works = some v) :
    Doors w v := by
  simp only [startStep?, Option.bind_eq_bind, Option.bind_eq_some_iff, Option.some.injEq] at after
  obtain ⟨hall, found, c, held, rfl⟩ := after
  have taken : Doors w (w.modifyHall k fun hall => { hall with inHand := none }) :=
    doors_modifyHall w k fun _ => rfl
  cases works with
  | false => exact taken
  | true => exact taken.trans (doors_modifyClient _ c _)

theorem shuts_dismiss {k : HallRef} (after : w.dismissStep? k = some v) (h : HallRef) :
    Shuts w h (.dismiss k) (v.door? h) := by
  simp only [dismissStep?, Option.bind_eq_bind, Option.bind_eq_some_iff] at after
  obtain ⟨hall, found, clients, dismissing, after⟩ := after
  cases clients with
  | nil => contradiction
  | cons c later =>
      obtain rfl := Option.some.inj after
      have door : w.door? k = some ⟨hall.accepting, some (c :: later)⟩ := by
        rw [door?, found, Option.map_some, Hall.door, dismissing]
      let taken := w.modifyHall k fun hall => { hall with dismissing := some later }
      have disconnects : Doors taken
          (if (taken.client? c).any Client.isConnected then taken.close c else taken) := by
        split
        · exact doors_modifyClient taken c _
        · exact Doors.refl taken
      rw [disconnects h, door?_modifyHall w k h (g := fun d => { d with dismissing := some later })
        fun _ => rfl]
      by_cases here : k = h
      · subst here
        rw [if_pos rfl, door]
        exact .dismisses hall.accepting c later door
      · rw [if_neg here]
        exact .stays _ fun same => here (Option.some.inj same)

theorem shuts_stop {k : HallRef} (after : w.after? (.stop k) = some v) (h : HallRef) :
    Shuts w h (.stop k) (v.door? h) := by
  simp only [after?, Option.ite_none_right_eq_some, Option.any_eq_true, Option.some.injEq] at after
  obtain ⟨⟨hall, found, accepting⟩, rfl⟩ := after
  have door : w.door? k = some ⟨true, hall.dismissing⟩ := by
    rw [door?, found, Option.map_some, Hall.door, accepting]
  rw [stopAccepting, door?_modifyHall w k h (g := fun d => { d with accepting := false })
    fun _ => rfl]
  by_cases here : k = h
  · subst here
    rw [if_pos rfl, door]
    exact .stops hall.dismissing door
  · rw [if_neg here]
    exact .stays _ fun same => here (Option.some.inj same)

theorem shuts_look {k : HallRef} (after : w.after? (.lookAround k) = some v) (h : HallRef) :
    Shuts w h (.lookAround k) (v.door? h) := by
  simp only [after?, Option.ite_none_right_eq_some, Option.any_eq_true, Option.some.injEq,
    Bool.and_eq_true, Bool.not_eq_true', Option.isNone_iff_eq_none] at after
  obtain ⟨⟨hall, found, stopped, unseen⟩, rfl⟩ := after
  have looked := hall?_modifyHall w k h fun hall =>
    { hall with dismissing := some hall.sessions.values }
  rw [lookAround, door?, looked]
  by_cases here : k = h
  · subst here
    rw [if_pos rfl, found, Option.map_some, Option.map_some, Hall.door, stopped]
    refine .looks hall found ?_
    rw [Hall.door, stopped, unseen]
  · rw [if_neg here]
    exact .stays _ fun same => here (Option.some.inj same)

/-- Only the steps of its shutdown touch the door of a hall. -/
theorem shuts_of_after? (after : w.after? e = some v) (h : HallRef) : Shuts w h e (v.door? h) := by
  cases e with
  | openHall defaultRoom =>
      obtain rfl := Option.some.inj after
      have made := doors_getOrCreateRoom (w.openHall defaultRoom).1 (w.openHall defaultRoom).2
        defaultRoom h
      refine made ▸ ?_
      rw [door?_openHall]
      split
      · next new =>
          refine .opens defaultRoom ?_
          rw [door?, hall?, new, List.getElem?_eq_none (Nat.le_refl _)]
          rfl
      · exact .of_doors (Doors.refl w) rfl
  | room k name =>
      simp only [after?, Option.ite_none_right_eq_some, Option.some.injEq] at after
      obtain ⟨-, rfl⟩ := after
      exact .of_doors (doors_getOrCreateRoom w k name) rfl
  | enterRoom k name c =>
      simp only [after?, Option.ite_none_right_eq_some, Option.some.injEq] at after
      obtain ⟨-, rfl⟩ := after
      exact .of_doors (doors_enterRoom w k name c) rfl
  | leaveRoom r playerId =>
      simp only [after?, Option.ite_none_right_eq_some, Option.some.injEq] at after
      obtain ⟨-, rfl⟩ := after
      exact .of_doors ((doors_pushToRoom w r _).trans (doors_pushTidy _ r)) rfl
  | tidyRoom r =>
      simp only [after?, Option.ite_none_right_eq_some, Option.some.injEq] at after
      obtain ⟨-, rfl⟩ := after
      exact .of_doors (doors_pushTidy w r) rfl
  | accept k => exact .of_doors (doors_accept after) rfl
  | start k works => exact .of_doors (doors_start after) rfl
  | arrive c => exact .of_doors (doors_arrive after) rfl
  | packet c p =>
      simp only [after?, Option.ite_none_right_eq_some, Option.some.injEq] at after
      obtain ⟨-, rfl⟩ := after
      refine .of_doors ?_ rfl
      cases p <;> exact doors_pushToSession w c _
  | depart c => exact .of_doors (doors_depart after) rfl
  | release c =>
      simp only [after?, Option.ite_none_right_eq_some, Option.some.injEq] at after
      obtain ⟨-, rfl⟩ := after
      exact .of_doors (doors_modifyClient w c _) rfl
  | work q i => exact .of_doors (doors_work after) rfl
  | stop k => exact shuts_stop after h
  | lookAround k => exact shuts_look after h
  | dismiss k => exact shuts_dismiss after h

/-! ## Everybody is tended to, whoever asks -/

/-- Everything is in order, the links are as they should be, and the queue of a session has only
jobs of its own client. -/
structure Staffed (past : List (RoomRef × RoomTask)) (w : World) : Prop where
  inOrder : InOrder past w
  linked : Linked w
  placed : ∀ q c task, (c, task) ∈ w.duties q → ∃ s, w.standing? c = some s ∧ s.queue = q

theorem Staffed.stir (staffed : Staffed past w) (after : w.after? e = some v) :
    Stir w v (w.hook? e) :=
  stir_of_after? staffed.inOrder.furnished staffed.linked staffed.placed after

theorem Staffed.after (staffed : Staffed past w) (after : w.after? e = some v) :
    Staffed (past ++ (w.performs? e).toList) v := by
  obtain ⟨deeds, change⟩ := change_of_after? staffed.inOrder.furnished after
  have stir := staffed.stir after
  refine ⟨staffed.inOrder.after after, staffed.linked.stir stir, fun q c task duty => ?_⟩
  have stands {s : Standing} (known : w.standing? c = some s) (own : s.queue = q) :
      ∃ s, v.standing? c = some s ∧ s.queue = q :=
    ⟨s, change.moves.extends.standing c s known, own⟩
  have before (duty : (c, task) ∈ w.duties q) : ∃ s, v.standing? c = some s ∧ s.queue = q := by
    obtain ⟨s, known, own⟩ := staffed.placed q c task duty
    exact stands known own
  generalize w.hook? e = hook at stir
  cases stir with
  | steady same => exact before (same.duties q ▸ duty)
  | comes i comes => exact before (comes.duties q ▸ duty)
  | lives d g hook lives =>
      rw [lives.duties] at duty
      split at duty
      · next here =>
          rcases List.mem_append.1 duty with old | new
          · exact before old
          · obtain ⟨_, -, same⟩ := List.mem_map.1 new
            obtain ⟨rfl, -⟩ := Prod.mk.inj same
            obtain ⟨client, found, rfl⟩ := Option.map_eq_some_iff.1 lives.found
            exact stands (standing?_of_client found) here
      · exact before duty
  | acts d client t next acts =>
      rw [acts.duties] at duty
      split at duty
      · next here =>
          rcases List.mem_append.1 duty with follows | waits
          · obtain ⟨_, -, same⟩ := List.mem_map.1 follows
            obtain ⟨rfl, -⟩ := Prod.mk.inj same
            exact stands (standing?_of_client acts.found) here
          · refine before ?_
            rw [duties_eq]
            exact List.mem_append_right _ waits
      · exact before duty

theorem staffed_opened (defaultRooms : List String) : Staffed [] (opened defaultRooms) := by
  have tended := tended_opened defaultRooms
  exact ⟨tended.agreed.inOrder, tended.linked, tended.placed⟩

/-! ## Who is among the sessions -/

/-- Whether a client has been put among the sessions of its hall. -/
def Enrolled (w : World) (c : ClientRef) : Prop := ∃ g, w.guest? c = some g ∧ 3 ≤ g.arrival.steps

theorem Enrolled.stir (enrolled : Enrolled w c) {hook : Option (ClientRef × Hook)}
    (stir : Stir w v hook) : Enrolled v c := by
  obtain ⟨g, found, steps⟩ := enrolled
  obtain ⟨g', after, more, -⟩ := stir.guest?_of_some found
  exact ⟨g', after, Nat.le_trans steps more⟩

/-- The sessions are what the clients say, and nobody goes, or is called to go, who has not been
put among them. -/
structure Booked (w : World) : Prop where
  sound : ∀ c g, w.guest? c = some g → g.Sound
  ended : ∀ c g, w.guest? c = some g → g.departure ≠ .unnoticed → Enrolled w c
  listed : Enlisted w
  called : ∀ h d list c, w.door? h = some d → d.dismissing = some list → c ∈ list → Enrolled w c

theorem Booked.bides (booked : Booked w) : Bides w := by
  intro c g found noted
  have leaves : g.departure ≠ .unnoticed := by
    rintro present
    rw [present] at noted
    contradiction
  obtain ⟨same, there, steps⟩ := booked.ended c g found leaves
  obtain rfl := Option.some.inj (found.symm.trans there)
  exact steps

theorem Booked.enrolled_of_session? (booked : Booked w) {k : Nat} (listed : w.session? h k = some c) :
    Enrolled w c := by
  obtain ⟨g, found, -, -, steps, -⟩ := booked.listed h k c listed
  exact ⟨g, found, steps⟩

/-- Whose end begins to be noted is disconnected. -/
theorem Guest.eq_close_of_leaves {hook : Hook} (fits : g.fits hook = true)
    (present : g.departure = .unnoticed) (leaves : (g.after hook).departure ≠ .unnoticed) :
    hook = .close := by
  cases hook with
  | close => rfl
  | delist =>
      have departure : g.departure = .closing := of_decide_eq_true fits
      rw [present] at departure
      contradiction
  | seeOff =>
      have departure : g.departure = .delisted := of_decide_eq_true fits
      rw [present] at departure
      contradiction
  | release =>
      have departure : g.departure = .seenOff := of_decide_eq_true fits
      rw [present] at departure
      contradiction
  | _ => exact absurd present leaves

/-- Somebody is disconnected by its own end, or by a shutdown. -/
theorem close_cases (step : w.hook? e = some (c, .close)) :
    e = .depart c ∨
      ∃ h d later, e = .dismiss h ∧ w.door? h = some d ∧ d.dismissing = some (c :: later) := by
  cases takes_of_hook? step with
  | depart => exact .inl rfl
  | dismiss h d _ later door dismissing => exact .inr ⟨h, d, later, rfl, door, dismissing⟩
  | arrive _ g _ found next =>
      cases arrival : g.arrival <;> rw [arrival] at next <;> cases next

theorem Arrival.steps_of_isEnlisted {arrival : Arrival} (enlisted : arrival.isEnlisted = true) :
    3 ≤ arrival.steps := by
  cases arrival with
  | enlisted => exact Nat.le_refl 3
  | greeted => exact Nat.le_succ 3
  | _ => contradiction

/-- Only those go who have been put among the sessions. -/
theorem Booked.enrolled_of_close (booked : Booked w) (after : w.after? e = some v)
    (found : w.guest? c = some g) (present : g.departure = .unnoticed)
    (step : w.hook? e = some (c, .close)) : Enrolled w c := by
  rcases close_cases step with rfl | ⟨h, d, later, -, door, dismissing⟩
  · obtain ⟨client, known, rfl⟩ := Option.map_eq_some_iff.1 found
    change w.departStep? c = some v at after
    rw [departStep?, known] at after
    change client.departure = .unnoticed at present
    simp only [Option.bind_eq_bind, Option.bind_some, present, Option.ite_none_right_eq_some,
      Bool.and_eq_true] at after
    exact ⟨client.guest, found, Arrival.steps_of_isEnlisted after.1.1⟩
  · exact booked.called h d _ c door dismissing List.mem_cons_self

theorem Booked.ended_stir (booked : Booked w) (after : w.after? e = some v)
    (stir : Stir w v (w.hook? e)) (found : v.guest? c = some g)
    (leaves : g.departure ≠ .unnoticed) : Enrolled v c := by
  cases stir.stems found with
  | new => exact absurd rfl leaves
  | kept g room before => exact (booked.ended c g before leaves).stir stir
  | stepped g hook before fits own =>
      by_cases present : g.departure = .unnoticed
      · obtain rfl := Guest.eq_close_of_leaves fits present leaves
        exact (booked.enrolled_of_close after before present own).stir stir
      · exact (booked.ended c g before present).stir stir

theorem Booked.called_after (booked : Booked w) (stir : Stir w v (w.hook? e))
    (after : w.after? e = some v) {d : Door} {list : List ClientRef} (door : v.door? h = some d)
    (dismissing : d.dismissing = some list) (called : c ∈ list) : Enrolled v c := by
  have shuts := shuts_of_after? after h
  rw [door] at shuts
  generalize same : some d = now at shuts
  cases shuts with
  | stays => exact (booked.called h d list c same.symm dismissing called).stir stir
  | opens =>
      obtain rfl := Option.some.inj same
      contradiction
  | stops _ before =>
      obtain rfl := Option.some.inj same
      exact (booked.called h _ list c before dismissing called).stir stir
  | looks hall found =>
      obtain rfl := Option.some.inj same
      obtain rfl := Option.some.inj dismissing
      obtain ⟨k, listed⟩ := Table.mem_values_iff.1 called
      have session : w.session? h k = some c := Option.bind_eq_some_iff.2 ⟨hall, found, listed⟩
      exact (booked.enrolled_of_session? session).stir stir
  | dismisses _ first later before =>
      obtain rfl := Option.some.inj same
      obtain rfl := Option.some.inj dismissing
      exact (booked.called h _ _ c before rfl (List.mem_cons_of_mem first called)).stir stir

theorem Booked.after (booked : Booked w) (staffed : Staffed past w)
    (after : w.after? e = some v) : Booked v := by
  have stir := staffed.stir after
  exact {
    sound := sound_stir booked.sound stir after
    ended := fun c g found leaves => booked.ended_stir after stir found leaves
    listed := booked.listed.stir booked.bides stir
    called := fun h d list c door dismissing called =>
      booked.called_after stir after door dismissing called }

/-- Nobody is called to go from a hall that has been opened. -/
theorem dismissing_opened (defaultRooms : List String) :
    ∀ h d, (opened defaultRooms).door? h = some d → d.dismissing = none := by
  have all (w : World) (before : ∀ h d, w.door? h = some d → d.dismissing = none) :
      ∀ h d, (defaultRooms.foldl (fun w defaultRoom => (w.openHall defaultRoom).1) w).door? h =
        some d → d.dismissing = none := by
    induction defaultRooms generalizing w with
    | nil => exact before
    | cons defaultRoom later ih =>
        refine ih _ fun h d door => ?_
        rw [door?_openHall] at door
        split at door
        · exact Option.some.inj door ▸ rfl
        · exact before h d door
  refine all empty fun h d door => ?_
  contradiction

theorem booked_opened (defaultRooms : List String) : Booked (opened defaultRooms) := by
  have steady := steady_opened defaultRooms
  have none_there (c : ClientRef) : (opened defaultRooms).guest? c = none := steady.guest? c
  refine ⟨fun c g found => ?_, fun c g found => ?_, fun h k c listed => ?_, ?_⟩
  · rw [none_there] at found
    contradiction
  · rw [none_there] at found
    contradiction
  · rw [steady.session?] at listed
    contradiction
  · intro h d list c door dismissing
    rw [dismissing_opened defaultRooms h d door] at dismissing
    contradiction

/-! ## After the shutdown has looked -/

/-- Whether a hall has nobody in hand and everybody connected among its sessions. -/
def Gathered (w : World) (h : HallRef) : Prop :=
  w.inHand? h = none ∧ ∀ c client, w.client? c = some client → client.hall = h →
    client.link = .connected → ∃ k, w.session? h k = some c

/-- A shutdown of a hall that looked around in the world `m` is under way, or over: who was among
the sessions goes or is called to go, and if all were, nobody else has come. -/
structure Clears (m : World) (h : HallRef) (w : World) : Prop where
  shut : ∃ list, w.door? h = some ⟨false, some list⟩ ∧ ∀ k c, m.session? h k = some c →
    c ∈ list ∨ ∃ g, w.guest? c = some g ∧ g.departure ≠ .unnoticed
  alone : m.Gathered h → w.inHand? h = none ∧ ∀ c g, w.guest? c = some g → g.standing.hall = h →
    g.link = .connected → ∃ k, m.session? h k = some c

theorem clears_lookAround (after : m.after? (.lookAround h) = some w) : Clears m h w := by
  have steady : Steady m w := by
    simp only [after?, Option.ite_none_right_eq_some, Option.some.injEq] at after
    obtain ⟨-, rfl⟩ := after
    exact steady_modifyHall m h (fun _ => rfl) fun _ _ => id
  constructor
  · have shuts := shuts_of_after? after h
    generalize w.door? h = door at shuts ⊢
    cases shuts with
    | stays _ other => exact absurd rfl other
    | looks hall found before =>
        refine ⟨_, rfl, fun k c listed => .inl (Table.mem_values_iff.2 ⟨k, ?_⟩)⟩
        obtain ⟨same, known, there⟩ := Option.bind_eq_some_iff.1 listed
        obtain rfl := Option.some.inj (found.symm.trans known)
        exact there
  · rintro ⟨free, gathered⟩
    refine ⟨?_, fun c g found hall connected => ?_⟩
    · refine Option.eq_none_iff_forall_ne_some.2 fun c held => ?_
      rw [steady.inHand? h c held] at free
      contradiction
    · rw [steady.guest?] at found
      obtain ⟨client, known, rfl⟩ := Option.map_eq_some_iff.1 found
      exact gathered c client known hall connected

/-- Whoever is disconnected by the shutdown goes, or has gone already. -/
theorem leaves_of_dismiss (booked : Booked w) (stir : Stir w v (w.hook? (.dismiss h)))
    {accepting : Bool} {later : List ClientRef}
    (door : w.door? h = some ⟨accepting, some (c :: later)⟩) :
    ∃ g, v.guest? c = some g ∧ g.departure ≠ .unnoticed := by
  obtain ⟨g, found, steps⟩ := booked.called h _ _ c door rfl List.mem_cons_self
  by_cases present : g.departure = .unnoticed
  · have noted : g.arrival ≠ .unnoticed := by
      intro unnoticed
      rw [unnoticed] at steps
      contradiction
    have connected := (booked.sound c g found).isConnected noted present
    have step : w.hook? (.dismiss h) = some (c, .close) := by
      obtain ⟨hall, known, hdoor⟩ := Option.map_eq_some_iff.1 door
      have seen : (w.hall? h).bind Hall.dismissing = some (c :: later) := by
        rw [known, Option.bind_some]
        exact congrArg Door.dismissing hdoor
      rw [hook?, seen]
      dsimp only
      rw [found, Option.any_some, if_pos connected]
    rw [step] at stir
    cases stir with
    | lives _ g' _ lives =>
        obtain rfl := Option.some.inj (found.symm.trans lives.found)
        refine ⟨_, (lives.guest? c).trans (if_pos rfl), ?_⟩
        have open_ : g.link = .connected :=
          of_decide_eq_true ((Bool.and_eq_true ..).mp connected).2
        rw [Guest.after, if_pos open_]
        exact Departure.noConfusion
  · obtain ⟨g', after, -, leaves⟩ := stir.guest?_of_some found
    exact ⟨g', after, leaves present⟩

theorem Clears.shut_after (clears : Clears m h w) (booked : Booked w)
    (stir : Stir w v (w.hook? e)) (after : w.after? e = some v) :
    ∃ list, v.door? h = some ⟨false, some list⟩ ∧ ∀ k c, m.session? h k = some c →
      c ∈ list ∨ ∃ g, v.guest? c = some g ∧ g.departure ≠ .unnoticed := by
  obtain ⟨list, door, goes⟩ := clears.shut
  have still {c : ClientRef} (gone : ∃ g, w.guest? c = some g ∧ g.departure ≠ .unnoticed) :
      ∃ g, v.guest? c = some g ∧ g.departure ≠ .unnoticed := by
    obtain ⟨g, found, leaves⟩ := gone
    obtain ⟨g', after, -, left⟩ := stir.guest?_of_some found
    exact ⟨g', after, left leaves⟩
  have shuts := shuts_of_after? after h
  generalize v.door? h = now at shuts ⊢
  cases shuts with
  | stays => exact ⟨list, door, fun k c listed => (goes k c listed).imp_right still⟩
  | opens _ absent =>
      rw [door] at absent
      contradiction
  | stops _ before =>
      have reopened := (Door.mk.inj (Option.some.inj (door.symm.trans before))).1
      contradiction
  | looks hall found before =>
      rw [door?, found, Option.map_some, before] at door
      have unseen := (Door.mk.inj (Option.some.inj door)).2
      contradiction
  | dismisses _ first later before =>
      obtain ⟨rfl, same⟩ := Door.mk.inj (Option.some.inj (door.symm.trans before))
      obtain rfl := Option.some.inj same
      refine ⟨later, rfl, fun k c listed => ?_⟩
      rcases goes k c listed with called | gone
      · rcases List.mem_cons.1 called with rfl | waits
        · exact .inr (leaves_of_dismiss booked stir door)
        · exact .inl waits
      · exact .inr (still gone)

/-- Whose session starts was in hand. -/
theorem inHand?_of_start (step : w.hook? e = some (c, .start)) : ∃ k, w.inHand? k = some c := by
  cases takes_of_hook? step with
  | start h _ held => exact ⟨h, held⟩
  | arrive _ g _ found next =>
      cases arrival : g.arrival <;> rw [arrival] at next <;> cases next
  | depart _ g _ found next =>
      cases departure : g.departure <;> rw [departure] at next <;> cases next

/-- A link is opened by the start of its session alone. -/
theorem Guest.connected_before {hook : Hook} (connected : (g.after hook).link = .connected) :
    g.link = .connected ∨ hook = .start := by
  cases hook with
  | start => exact .inr rfl
  | close =>
      rw [Guest.after] at connected
      split at connected
      · contradiction
      · exact .inl connected
  | release =>
      rw [Guest.after] at connected
      split at connected
      · contradiction
      · exact .inl connected
  | _ => exact .inl connected

/-- Nobody comes into the hands of a hall that has stopped accepting connections. -/
theorem Clears.inHand?_after (clears : Clears m h w) {hook : Option (ClientRef × Hook)}
    (stir : Stir w v hook) {d : ClientRef} (held : v.inHand? h = some d) :
    w.inHand? h = some d := by
  cases stir with
  | steady same => exact same.inHand? h d held
  | comes i comes =>
      rcases comes.inHand? h d held with before | ⟨rfl, -⟩
      · exact before
      · obtain ⟨list, door, -⟩ := clears.shut
        obtain ⟨same, known, accepting⟩ := comes.accepting
        obtain rfl := Option.some.inj (door.symm.trans known)
        contradiction
  | lives c g hook lives => exact (lives.inHand? h d held).1
  | acts c client task next acts => exact acts.inHand? h d held

theorem Clears.alone_after (clears : Clears m h w) (linked : Linked w)
    (stir : Stir w v (w.hook? e)) (gathered : m.Gathered h) :
    v.inHand? h = none ∧ ∀ c g, v.guest? c = some g → g.standing.hall = h →
      g.link = .connected → ∃ k, m.session? h k = some c := by
  obtain ⟨free, all⟩ := clears.alone gathered
  constructor
  · refine Option.eq_none_iff_forall_ne_some.2 fun d held => ?_
    rw [clears.inHand?_after stir held] at free
    contradiction
  · intro c g found hall connected
    cases stir.stems found with
    | new => contradiction
    | kept g room before => exact all c g before hall connected
    | stepped g hook before fits own =>
        rw [Guest.standing_after] at hall
        rcases Guest.connected_before connected with already | rfl
        · exact all c g before hall already
        · obtain ⟨k, held⟩ := inHand?_of_start own
          obtain ⟨same, known, here, -⟩ := linked.inHand k c held
          obtain rfl := Option.some.inj (before.symm.trans known)
          rw [← here, hall, free] at held
          contradiction

theorem Clears.after (clears : Clears m h w) (staffed : Staffed past w) (booked : Booked w)
    (after : w.after? e = some v) : Clears m h v :=
  ⟨clears.shut_after booked (staffed.stir after) after,
    clears.alone_after staffed.linked (staffed.stir after)⟩

/-! ## When everything has come to rest -/

/-- Nothing is left to do for the sessions of a hall but to wait for their peers: no session has
still to start, and no coming and no end has still to be noted. -/
structure AtRest (w : World) (h : HallRef) : Prop where
  start : ∀ works, w.after? (.start h works) = none
  arrive : ∀ c client, w.client? c = some client → client.hall = h → w.after? (.arrive c) = none
  depart : ∀ c client, w.client? c = some client → client.hall = h →
    client.departure ≠ .unnoticed → w.after? (.depart c) = none

/-- What a shutdown of a hall that looked around in the world `m` has come to: whoever was among
the sessions is disconnected and no longer among them, and if everybody was who had come, nobody
is connected and there are no sessions. -/
structure Cleared (m : World) (h : HallRef) (w : World) : Prop where
  seen : ∀ k c, m.session? h k = some c →
    (∀ client, w.client? c = some client → client.link ≠ .connected) ∧
      ∀ i, w.session? h i ≠ some c
  all : m.Gathered h →
    (∀ c client, w.client? c = some client → client.hall = h → client.link ≠ .connected) ∧
      ∀ hall, w.hall? h = some hall → hall.sessions.entries = []

/-- Whose end begins to be noted and then is at rest has been seen off. -/
theorem AtRest.seenOff (rest : AtRest w h) {client : Client} (found : w.client? c = some client)
    (here : client.hall = h) (leaves : client.departure ≠ .unnoticed) :
    client.departure = .seenOff := by
  have none_left := rest.depart c client found here leaves
  change w.departStep? c = none at none_left
  rw [departStep?, found] at none_left
  cases departure : client.departure with
  | unnoticed => exact absurd departure leaves
  | closing => simp [departure] at none_left
  | delisted => simp [departure] at none_left
  | seenOff => rfl

theorem Clears.cleared (clears : Clears m h w) (staffed : Staffed past w) (booked : Booked w)
    (returned : w.isShutDown h = true) (rest : AtRest w h) : Cleared m h w := by
  obtain ⟨list, door, goes⟩ := clears.shut
  have gone {k : Nat} {c : ClientRef} (listed : m.session? h k = some c) :
      ∃ client, w.client? c = some client ∧ client.departure ≠ .unnoticed := by
    obtain ⟨hall, found, done⟩ := (Option.any_eq_true ..).1 returned
    rw [door?, found, Option.map_some, Hall.door, of_decide_eq_true done] at door
    obtain rfl := Option.some.inj (Door.mk.inj (Option.some.inj door)).2
    rcases goes k c listed with called | ⟨g, there, leaves⟩
    · contradiction
    · obtain ⟨client, known, rfl⟩ := Option.map_eq_some_iff.1 there
      exact ⟨client, known, leaves⟩
  have parted {c : ClientRef} {client : Client} (found : w.client? c = some client)
      (leaves : client.departure ≠ .unnoticed) : client.link ≠ .connected := fun connected =>
    leaves (staffed.linked.connected c client.guest (guest?_of_client found) connected)
  -- At rest a session is that of somebody who is not going.
  have present {i : Nat} {c : ClientRef} (listed : w.session? h i = some c) :
      ∃ client, w.client? c = some client ∧ client.hall = h ∧
        client.guest.arrival ≠ .unnoticed ∧ client.departure = .unnoticed := by
    obtain ⟨g, there, hall, -, steps, stays⟩ := booked.listed h i c listed
    obtain ⟨client, found, rfl⟩ := Option.map_eq_some_iff.1 there
    refine ⟨client, found, hall, fun unnoticed => ?_, ?_⟩
    · rw [unnoticed] at steps
      contradiction
    · by_contra leaves
      rw [show client.guest.departure = .seenOff from rest.seenOff found hall leaves] at stays
      contradiction
  have nobody (gathered : m.Gathered h) (c : ClientRef) (client : Client)
      (found : w.client? c = some client) (hall : client.hall = h) :
      client.link ≠ .connected := by
    intro connected
    obtain ⟨k, listed⟩ :=
      (clears.alone gathered).2 c client.guest (guest?_of_client found) hall connected
    obtain ⟨same, known, leaves⟩ := gone listed
    obtain rfl := Option.some.inj (found.symm.trans known)
    exact parted found leaves connected
  refine ⟨fun k c listed => ?_, fun gathered => ⟨nobody gathered, fun hall found => ?_⟩⟩
  · obtain ⟨client, found, leaves⟩ := gone listed
    refine ⟨fun same known => ?_, fun i still => ?_⟩
    · obtain rfl := Option.some.inj (found.symm.trans known)
      exact parted found leaves
    · obtain ⟨same, known, -, -, stays⟩ := present still
      obtain rfl := Option.some.inj (found.symm.trans known)
      exact leaves stays
  · apply Table.entries_eq_nil_of_find?
    intro i c listed
    obtain ⟨client, known, here, noted, stays⟩ :=
      present (Option.bind_eq_some_iff.2 ⟨hall, found, listed⟩)
    have connected := (booked.sound c _ (guest?_of_client known)).isConnected noted stays
    exact nobody gathered c client known here
      (of_decide_eq_true ((Bool.and_eq_true ..).mp connected).2)

/-- In every course of events: once a shutdown of a hall is over and everything has come to rest,
whoever it saw is gone, and everybody is if it saw all who had come. -/
theorem cleared_of_course (defaultRooms : List String) (before later : List Event) (h : HallRef)
    (m w : World) (seen : (opened defaultRooms).afterAll? before = some m)
    (course : m.afterAll? (.lookAround h :: later) = some w)
    (returned : w.isShutDown h = true) (rest : AtRest w h) : Cleared m h w := by
  obtain ⟨staffed, booked⟩ := course_induction
    (P := fun past w => Staffed past w ∧ Booked w)
    (fun past w e v _ h after => ⟨h.1.after after, h.2.after h.1 after⟩)
    ⟨staffed_opened defaultRooms, booked_opened defaultRooms⟩ seen
  rw [afterAll?, List.foldlM_cons] at course
  obtain ⟨u, looked, after⟩ := Option.bind_eq_some_iff.1 course
  obtain ⟨staffed, booked, clears⟩ := course_induction
    (P := fun past w => Staffed past w ∧ Booked w ∧ Clears m h w)
    (fun past w e v _ h after => ⟨h.1.after after, h.2.1.after h.1 after,
      h.2.2.after h.1 h.2.1 after⟩)
    ⟨staffed.after looked, booked.after staffed looked, clears_lookAround looked⟩ after
  exact clears.cleared staffed booked returned rest

theorem atRest_of_all (free : w.inHand? h = none)
    (settled : w.state.clients.all (fun client => client.arrival = .greeted &&
      (client.departure = .unnoticed || client.departure = .seenOff)) = true) : AtRest w h := by
  have each {c : ClientRef} {client : Client} (found : w.client? c = some client) :
      client.arrival = .greeted ∧
        (client.departure = .unnoticed ∨ client.departure = .seenOff) := by
    have settled := List.all_eq_true.1 settled client (List.mem_of_getElem? found)
    simpa only [Bool.and_eq_true, Bool.or_eq_true, decide_eq_true_eq] using settled
  refine ⟨fun works => ?_, fun c client found _ => ?_, fun c client found _ leaves => ?_⟩
  · change w.startStep? h works = none
    rw [startStep?]
    cases known : w.hall? h with
    | none => rfl
    | some hall =>
        rw [inHand?, known, Option.bind_some] at free
        simp only [Option.bind_eq_bind, Option.bind_some, free, Option.bind_none]
  · change w.arriveStep? c = none
    simp [arriveStep?, found, (each found).1]
  · change w.departStep? c = none
    have gone := (each found).2.resolve_left leaves
    simp [departStep?, found, gone]

/-- Somebody is in a room and somebody else has just been put among the sessions. -/
def lastGuests : List Event :=
  [.room 0 "lobby", .accept 0, .start 0 true, .arrive 0, .arrive 0, .arrive 0, .arrive 0] ++
  List.replicate 7 (.work 1 0) ++ List.replicate 4 (.work 0 0) ++
  [.accept 0, .start 0 true, .arrive 1, .arrive 1, .arrive 1, .stop 0]

/-- Both are disconnected, the second before its coming has been noted to the end. -/
def lastOrders : List Event :=
  [.dismiss 0, .dismiss 0, .depart 1, .depart 0, .depart 0, .depart 1, .arrive 1]

/-- A shutdown that sees everybody leaves nobody. -/
theorem cleared_of_course_lastOrders :
    ∃ m w, (opened ["lobby"]).afterAll? lastGuests = some m ∧
      m.afterAll? (.lookAround 0 :: lastOrders) = some w ∧
      w.isShutDown 0 = true ∧ AtRest w 0 ∧ m.session? 0 1 = some 0 ∧ m.session? 0 2 = some 1 ∧
      m.Gathered 0 ∧ Cleared m 0 w := by
  have checked : ((opened ["lobby"]).afterAll? lastGuests).any (fun m =>
      m.inHand? 0 = none && m.session? 0 1 = some 0 && m.session? 0 2 = some 1 &&
        m.state.clients.length = 2 &&
        (m.afterAll? (.lookAround 0 :: lastOrders)).any fun w =>
          w.isShutDown 0 && w.inHand? 0 = none &&
            w.state.clients.all fun client => client.arrival = .greeted &&
              (client.departure = .unnoticed || client.departure = .seenOff)) = true := by
    decide +kernel
  obtain ⟨m, seen, checked⟩ := (Option.any_eq_true ..).1 checked
  simp only [Bool.and_eq_true, decide_eq_true_eq] at checked
  obtain ⟨⟨⟨⟨free, first⟩, second⟩, two⟩, checked⟩ := checked
  obtain ⟨w, course, checked⟩ := (Option.any_eq_true ..).1 checked
  simp only [Bool.and_eq_true, decide_eq_true_eq] at checked
  obtain ⟨⟨returned, idle⟩, settled⟩ := checked
  have rest := atRest_of_all idle settled
  have gathered : m.Gathered 0 := by
    refine ⟨free, fun c client found _ _ => ?_⟩
    have below : c < 2 := two ▸ (List.getElem?_eq_some_iff.1 found).choose
    rcases Nat.le_one_iff_eq_zero_or_eq_one.1 (Nat.le_of_lt_succ below) with rfl | rfl
    · exact ⟨1, first⟩
    · exact ⟨2, second⟩
  exact ⟨m, w, seen, course, returned, rest, first, second, gathered,
    cleared_of_course ["lobby"] lastGuests lastOrders 0 m w seen course returned rest⟩

/-! ## Whom a shutdown misses -/

/-- The shutdown of a hall is over, everything has come to rest and all queues are empty, and yet a
client is connected and among the sessions. -/
def Outstays (events : List Event) (c : ClientRef) : Prop :=
  ∃ w client, (opened ["lobby"]).afterAll? events = some w ∧
    w.isShutDown 0 = true ∧ AtRest w 0 ∧
    (∀ q queue, w.pool.queue? q = some queue → queue.outstanding = []) ∧
    w.client? c = some client ∧ client.link = .connected ∧
    w.session? 0 client.sessionId = some c

theorem outstays_of_any {events : List Event} {c : ClientRef}
    (checked : ((opened ["lobby"]).afterAll? events).any (fun w =>
      w.isShutDown 0 && w.inHand? 0 = none &&
        w.state.clients.all (fun client => client.arrival = .greeted &&
          (client.departure = .unnoticed || client.departure = .seenOff)) &&
        w.pool.queues.all (·.outstanding.isEmpty) &&
        (w.client? c).any fun client => client.link = .connected &&
          w.session? 0 client.sessionId = some c) = true) : Outstays events c := by
  obtain ⟨w, course, checked⟩ := (Option.any_eq_true ..).1 checked
  rw [Bool.and_eq_true, Bool.and_eq_true, Bool.and_eq_true, Bool.and_eq_true] at checked
  obtain ⟨⟨⟨⟨returned, idle⟩, settled⟩, done⟩, left⟩ := checked
  obtain ⟨client, found, left⟩ := (Option.any_eq_true ..).1 left
  simp only [Bool.and_eq_true, decide_eq_true_eq] at left
  exact ⟨w, client, course, returned, atRest_of_all (of_decide_eq_true idle) settled,
    outstanding_eq_nil_of_all done, found, left.1, left.2⟩

/-- A connection has been accepted, and its session starts when the shutdown is over. -/
def lateStart : List Event :=
  [.room 0 "lobby", .accept 0, .stop 0, .lookAround 0, .start 0 true,
    .arrive 0, .arrive 0, .arrive 0, .arrive 0] ++
  List.replicate 7 (.work 1 0) ++ List.replicate 4 (.work 0 0)

/-- A session has started, and its coming is noted when the shutdown is over. -/
def lateArrival : List Event :=
  [.room 0 "lobby", .accept 0, .start 0 true, .stop 0, .lookAround 0,
    .arrive 0, .arrive 0, .arrive 0, .arrive 0] ++
  List.replicate 7 (.work 1 0) ++ List.replicate 4 (.work 0 0)

/-- A client that the shutdown has not seen stays connected for good. -/
theorem outstays_lateStart_lateArrival : Outstays lateStart 0 ∧ Outstays lateArrival 0 :=
  ⟨outstays_of_any (by decide +kernel), outstays_of_any (by decide +kernel)⟩

end World

end ChatHall.Server
