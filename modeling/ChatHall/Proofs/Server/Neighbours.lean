/-
# Halls that share a pool

What halls leave of each other's queues when they share a pool. The queue of a session
is named for an id that is unique in its hall, and that of a room for the room, so the
names are those of all halls together: whoever registers a queue takes its name from
the queue that had it, and whoever gives a queue up takes away whatever has the name.
A queue that is in use stands under its name as long as no other hall has come to the
same one. Nothing keeps two halls from doing so: every hall counts its sessions from
one, and any client may ask for any room.
-/

import ChatHall.Proofs.Server.Punctual

namespace ChatHall.Server

theorem sessionQueueName_injective {k l : Nat} (h : sessionQueueName k = sessionQueueName l) :
    k = l := by
  have chars := congrArg String.toList h
  simp only [sessionQueueName, toString, String.toList_append] at chars
  have digits : Nat.toDigits 10 k = Nat.toDigits 10 l := by simpa using chars
  rw [← Nat.ofDigitChars_ten_toDigits (n := k), digits, Nat.ofDigitChars_ten_toDigits]

/-- Whether somebody who is no session asks for something of the rooms. -/
def Event.bypasses : Event → Bool
  | room .. | enterRoom .. | leaveRoom .. | tidyRoom _ => true
  | _ => false

/-- Whoever has been seen off stays so, as only a guest with an open link can be disconnected. -/
theorem Guest.seenOff_stays {g : Guest} {hook : Hook} (fits : g.fits hook = true)
    (linked : g.link = .connected → g.departure = .unnoticed) (gone : g.departure = .seenOff) :
    (g.after hook).departure = .seenOff ∧ hook ≠ .seeOff := by
  cases hook with
  | close =>
      have connected : g.link = .connected := by
        rw [Guest.fits, isConnected, Bool.and_eq_true] at fits
        exact of_decide_eq_true fits.2
      rw [linked connected] at gone
      contradiction
  | delist =>
      have closing : g.departure = .closing := of_decide_eq_true fits
      rw [gone] at closing
      contradiction
  | seeOff =>
      have delisted : g.departure = .delisted := of_decide_eq_true fits
      rw [gone] at delisted
      contradiction
  | release =>
      rw [Guest.after]
      split <;> exact ⟨gone, Hook.noConfusion⟩
  | _ => exact ⟨gone, Hook.noConfusion⟩

/-- Nothing but its registration makes a client count as registered. -/
theorem Guest.registered_before {g : Guest} {hook : Hook} (fits : g.fits hook = true)
    (other : hook ≠ .register) (registered : 2 ≤ (g.after hook).arrival.steps) :
    2 ≤ g.arrival.steps := by
  cases hook with
  | register => contradiction
  | attach => contradiction
  | enlist =>
      have arrival : g.arrival = .registered := of_decide_eq_true fits
      exact arrival ▸ Nat.le_refl 2
  | greet =>
      have arrival : g.arrival = .enlisted := of_decide_eq_true fits
      exact arrival ▸ Nat.le_succ 2
  | close =>
      rw [Guest.after] at registered
      split at registered <;> exact registered
  | release =>
      rw [Guest.after] at registered
      split at registered <;> exact registered
  | _ => exact registered

namespace World

variable {w v u : World} {past : List (RoomRef × RoomTask)} {c d : ClientRef} {g : Guest}
variable {q : Jobs.QueueRef}

/-! ## Queues in use -/

def retires (c : ClientRef) (duty : ClientRef × SessionTask) : Bool :=
  duty.2.isRetiring && duty.1 = c

/-- How often a queue is yet to be given up for a client. -/
def retirements (w : World) (c : ClientRef) (q : Jobs.QueueRef) : Nat :=
  (w.duties q).countP (retires c)

/-- Whether a client uses the queue of its session: from its registration until the last job on
it has given it up. -/
def usesQueue (w : World) (c : ClientRef) (g : Guest) : Bool :=
  2 ≤ g.arrival.steps && (g.departure ≠ .seenOff || 0 < w.retirements c g.standing.queue)

theorem usesQueue_iff : w.usesQueue c g = true ↔
    2 ≤ g.arrival.steps ∧ (g.departure = .seenOff → 0 < w.retirements c g.standing.queue) := by
  rw [usesQueue, Bool.and_eq_true, Bool.or_eq_true, decide_eq_true_eq, decide_eq_true_eq,
    decide_eq_true_eq, ← imp_iff_not_or]

/-- Between two worlds, in the first of which it is this guest, a client has its queue registered
or gives it up. -/
def Renames (w v : World) (c : ClientRef) (g : Guest) : Prop :=
  (∃ after, v.guest? c = some after ∧ g.arrival.steps < 2 ∧ 2 ≤ after.arrival.steps) ∨
    v.retirements c g.standing.queue < w.retirements c g.standing.queue

/-! ## What becomes of the retirements -/

theorem countP_retires_toList (c d : ClientRef) (task : Option SessionTask) :
    (task.toList.map (c, ·)).countP (retires d) =
      if task.any SessionTask.isRetiring = true ∧ c = d then 1 else 0 := by
  cases task with
  | none => simp
  | some t => simp [retires, List.countP_singleton]

/-- Only a farewell calls to a retirement. -/
theorem any_isRetiring_call (hook : Hook) :
    hook.call?.any SessionTask.isRetiring = decide (hook = .seeOff) := by
  cases hook with
  | receive p => cases p <;> rfl
  | _ => rfl

theorem Lives.retirements {hook : Hook} (lives : Lives w c g hook v) :
    v.retirements d q = w.retirements d q +
      if hook = .seeOff ∧ c = d ∧ g.standing.queue = q then 1 else 0 := by
  rw [World.retirements, lives.duties, World.retirements]
  split
  · next here =>
      rw [List.countP_append, countP_retires_toList]
      simp only [any_isRetiring_call, decide_eq_true_eq, here, and_true]
  · next other => rw [if_neg fun both => other both.2.2, Nat.add_zero]

/-- A job that retires goes on doing so, but for its last stage. -/
theorem Acts.retirements {client : Client} {task : SessionTask} {next : Option SessionTask}
    (acts : Acts w c client task next v) :
    v.retirements d q + (if task = .going .retire ∧ c = d ∧ client.queue = q then 1 else 0) =
      w.retirements d q := by
  obtain ⟨u, errand, -⟩ := acts.errand
  rw [World.retirements, acts.duties, World.retirements]
  split
  · next here =>
      have busy : w.duties q = (c, task) :: w.awaiting q := by
        rw [duties_eq, ← here, acts.busy]
        rfl
      rw [busy, List.countP_append, List.countP_cons, countP_retires_toList, errand.any_isRetiring,
        retires, Nat.add_right_comm, Nat.add_comm]
      congr 1
      by_cases last : task = .going .retire
      · simp [last, here, SessionTask.isRetiring]
      · simp [last]
  · next other => rw [if_neg fun both => other both.2.2, Nat.add_zero]

theorem Acts.retirements_le {client : Client} {task : SessionTask} {next : Option SessionTask}
    (acts : Acts w c client task next v) : v.retirements d q ≤ w.retirements d q :=
  acts.retirements ▸ Nat.le_add_right _ _

/-- What a guest was before a job acted, at most in another room. -/
theorem Acts.guest_before {client : Client} {task : SessionTask} {next : Option SessionTask}
    (acts : Acts w c client task next v) (found : v.guest? d = some g) :
    ∃ g' room, w.guest? d = some g' ∧ g = { g' with room } := by
  obtain ⟨seat, -, guests⟩ := acts.guest?
  rw [guests] at found
  split at found
  · next own =>
      exact ⟨client.guest, seat, own ▸ guest?_of_client acts.found, (Option.some.inj found).symm⟩
  · exact ⟨g, g.room, found, rfl⟩

/-! ## Halls and the names of their sessions -/

/-- Everybody's jobs are on the own queue, and nobody retires twice. -/
structure Retiring (w : World) : Prop where
  furnished : Furnished w
  linked : Linked w
  placed : ∀ q c task, (c, task) ∈ w.duties q → ∃ s, w.standing? c = some s ∧ s.queue = q
  once : ∀ c g, w.guest? c = some g →
    w.retirements c g.standing.queue ≤ if g.departure = .seenOff then 1 else 0

/-- The name of the queue that a client uses stands for it. -/
def Stands (w : World) (c : ClientRef) (g : Guest) : Prop :=
  w.usesQueue c g = true →
    w.pool.find? (sessionQueueName g.standing.sessionId) = some g.standing.queue

/-- Nobody in another hall with the id of a guest has a queue registered or gives it up. -/
def Spared (w v : World) (s : Standing) : Prop :=
  ∀ d g, w.guest? d = some g → g.standing.sessionId = s.sessionId → g.standing.hall ≠ s.hall →
    ¬ Renames w v d g

section Stir

variable {hook : Option (ClientRef × Hook)}

theorem standing?_of_guest (found : w.guest? c = some g) : w.standing? c = some g.standing := by
  rw [standing?_eq_guest?, found]
  rfl

theorem placed_stir
    (placed : ∀ q c task, (c, task) ∈ w.duties q → ∃ s, w.standing? c = some s ∧ s.queue = q)
    (extends_ : Extends w v) (stir : Stir w v hook) (q : Jobs.QueueRef) (c : ClientRef)
    (task : SessionTask) (duty : (c, task) ∈ v.duties q) :
    ∃ s, v.standing? c = some s ∧ s.queue = q := by
  have before {d : ClientRef} {t : SessionTask} (old : (d, t) ∈ w.duties q) :
      ∃ s, v.standing? d = some s ∧ s.queue = q := by
    obtain ⟨s, known, own⟩ := placed q d t old
    exact ⟨s, extends_.standing d s known, own⟩
  cases stir with
  | steady same => exact before (same.duties q ▸ duty)
  | comes h comes => exact before (comes.duties q ▸ duty)
  | lives d g hook lives =>
      rw [lives.duties] at duty
      split at duty
      · next here =>
          rcases List.mem_append.1 duty with old | called
          · exact before old
          · obtain ⟨t, -, same⟩ := List.mem_map.1 called
            obtain ⟨rfl, -⟩ := Prod.mk.inj same
            exact ⟨g.standing, extends_.standing d _ (standing?_of_guest lives.found), here⟩
      · exact before duty
  | acts d client t next acts =>
      rw [acts.duties] at duty
      split at duty
      · next here =>
          rcases List.mem_append.1 duty with follows | waits
          · obtain ⟨_, -, same⟩ := List.mem_map.1 follows
            obtain ⟨rfl, -⟩ := Prod.mk.inj same
            exact ⟨client.standing, extends_.standing d _ (standing?_of_client acts.found), here⟩
          · refine before (t := task) ?_
            rw [duties_eq]
            exact List.mem_append_right _ waits
      · exact before duty

theorem Retiring.once_stir (h : Retiring w) (stir : Stir w v hook)
    (found : v.guest? c = some g) :
    v.retirements c g.standing.queue ≤ if g.departure = .seenOff then 1 else 0 := by
  cases stir with
  | steady same =>
      rw [same.guest?] at found
      rw [retirements, same.duties]
      exact h.once c g found
  | comes i comes =>
      obtain ⟨s, -, guests⟩ := comes.guest?
      rw [retirements, comes.duties]
      rw [guests] at found
      split at found
      · next new =>
          obtain rfl := Option.some.inj found
          refine Nat.le_of_eq (List.countP_eq_zero.2 ?_)
          rintro ⟨d, task⟩ duty own
          obtain ⟨t, known, -⟩ := h.placed _ d task duty
          obtain ⟨-, same⟩ := (Bool.and_eq_true ..).mp own
          obtain rfl : d = c := of_decide_eq_true same
          rw [new, standing?, client?_length] at known
          contradiction
      · exact h.once c g found
  | lives d g' hook lives =>
      rw [lives.retirements]
      rw [lives.guest?] at found
      split at found
      · next own =>
          subst own
          obtain rfl := Option.some.inj found
          have before := h.once c g' lives.found
          rw [Guest.standing_after]
          by_cases off : hook = .seeOff
          · subst off
            have delisted : g'.departure = .delisted := of_decide_eq_true lives.fits
            rw [delisted] at before
            rw [if_pos ⟨rfl, rfl, rfl⟩]
            exact Nat.succ_le_succ before
          · rw [if_neg fun both => off both.1, Nat.add_zero]
            refine Nat.le_trans before ?_
            split
            · next gone =>
                have linked := h.linked.connected c g' lives.found
                exact Nat.le_of_eq (if_pos (Guest.seenOff_stays lives.fits linked gone).1).symm
            · exact Nat.zero_le _
      · next other =>
          rw [if_neg fun both => other both.2.1.symm]
          exact h.once c g found
  | acts d client task next acts =>
      obtain ⟨g, room, before, rfl⟩ := acts.guest_before found
      exact Nat.le_trans acts.retirements_le (h.once c g before)

/-- A client whose name changes in the stead of another one's is that one. -/
theorem Retiring.eq_of_name (h : Retiring w) {g' : Guest} (found : w.guest? c = some g)
    (other : w.guest? d = some g') (spared : Spared w v g.standing) (renames : Renames w v d g')
    (name : sessionQueueName g.standing.sessionId = sessionQueueName g'.standing.sessionId) :
    c = d := by
  have same := sessionQueueName_injective name
  have hall : g.standing.hall = g'.standing.hall := by
    by_contra elsewhere
    exact spared d g' other same.symm (Ne.symm elsewhere) renames
  exact h.furnished.distinct c d _ _ (standing?_of_guest found) (standing?_of_guest other) hall same

/-- A client that uses its queue after an event has used it before, or is being registered. -/
theorem Retiring.usesQueue_lives (h : Retiring w) {hook : Hook} (lives : Lives w c g hook v)
    (other : hook ≠ .register) (uses : v.usesQueue c (g.after hook) = true) :
    w.usesQueue c g = true := by
  obtain ⟨registered, retiring⟩ := usesQueue_iff.1 uses
  refine usesQueue_iff.2 ⟨Guest.registered_before lives.fits other registered, fun gone => ?_⟩
  have linked := h.linked.connected c g lives.found
  obtain ⟨stays, notNow⟩ := Guest.seenOff_stays lives.fits linked gone
  have later := retiring stays
  rwa [Guest.standing_after, lives.retirements, if_neg fun both => notNow both.1, Nat.add_zero]
    at later

/-- The last stage of a retirement is the last use of the queue. -/
theorem Retiring.not_usesQueue (h : Retiring w) {client : Client} {next : Option SessionTask}
    (acts : Acts w c client (.going .retire) next v) (room : Option RoomRef) :
    v.usesQueue c { client.guest with room } = false := by
  have last : v.retirements c client.guest.standing.queue + 1 =
      w.retirements c client.guest.standing.queue := by
    have all := acts.retirements (d := c) (q := client.queue)
    rwa [if_pos ⟨rfl, rfl, rfl⟩] at all
  have once := h.once c client.guest (guest?_of_client acts.found)
  apply eq_false_of_ne_true
  intro uses
  have retiring := (usesQueue_iff.1 uses).2
  split at once
  · next gone =>
      have left : 0 < v.retirements c client.guest.standing.queue := retiring gone
      omega
  · omega

/-- A name stays what it is for whoever uses it, unless somebody in another hall takes it. -/
theorem Retiring.stands_stir (h : Retiring w) (stir : Stir w v hook) (found : v.guest? c = some g)
    (before : ∀ g', w.guest? c = some g' → g'.standing = g.standing → Stands w c g')
    (spared : Spared w v g.standing) : Stands v c g := by
  intro uses
  cases stir with
  | steady same =>
      rw [same.guest?] at found
      rw [usesQueue, retirements, same.duties] at uses
      rw [same.named]
      exact before g found rfl uses
  | comes i comes =>
      obtain ⟨s, -, guests⟩ := comes.guest?
      rw [guests] at found
      rw [usesQueue, retirements, comes.duties] at uses
      rw [comes.named]
      split at found
      · obtain rfl := Option.some.inj found
        exact absurd (usesQueue_iff.1 uses).1 (Nat.not_succ_le_zero 1)
      · exact before g found rfl uses
  | lives d g' hook lives =>
      rw [lives.named]
      have after := (lives.guest? d).trans (if_pos rfl)
      rw [lives.guest?] at found
      split at found
      · next same =>
          subst same
          obtain rfl := Option.some.inj found
          rw [Guest.standing_after] at before ⊢
          by_cases registers : hook = .register
          · rw [if_pos ⟨registers, rfl⟩]
          · rw [if_neg fun both => registers both.1]
            exact before g' lives.found rfl (h.usesQueue_lives lives registers uses)
      · next other =>
          rw [if_neg]
          · rw [usesQueue, lives.retirements, if_neg fun both => other both.2.1.symm] at uses
            exact before g found rfl uses
          · rintro ⟨rfl, name⟩
            have attached : g'.arrival = .attached := of_decide_eq_true lives.fits
            refine other (h.eq_of_name found lives.found spared (.inl ⟨_, after, ?_⟩) name)
            exact ⟨attached ▸ Nat.lt_succ_self 1, Nat.le_refl 2⟩
  | acts d client task next acts =>
      obtain ⟨g, room, known, rfl⟩ := acts.guest_before found
      obtain ⟨registered, retiring⟩ := usesQueue_iff.1 uses
      rw [acts.named, if_neg]
      · refine before g known rfl (usesQueue_iff.2 ⟨registered, fun gone => ?_⟩)
        exact Nat.lt_of_lt_of_le (retiring gone) acts.retirements_le
      · rintro ⟨rfl, name⟩
        have client_known := guest?_of_client acts.found
        have renames : Renames w v d client.guest := by
          have all := acts.retirements (d := d) (q := client.queue)
          rw [if_pos ⟨rfl, rfl, rfl⟩] at all
          exact .inr (Nat.lt_of_succ_le (Nat.le_of_eq all))
        obtain rfl := h.eq_of_name known client_known spared renames name
        obtain rfl := Option.some.inj (client_known.symm.trans known)
        rw [h.not_usesQueue acts room] at uses
        contradiction

theorem Retiring.after (h : Retiring w) {e : Event} (after : w.after? e = some v) :
    Retiring v := by
  obtain ⟨deeds, change⟩ := change_of_after? h.furnished after
  have stir := stir_of_after? h.furnished h.linked h.placed after
  exact {
    furnished := h.furnished.moves change.moves
    linked := h.linked.stir stir
    placed := placed_stir h.placed change.moves.extends stir
    once := fun c g found => h.once_stir stir found }

end Stir

theorem retiring_opened (defaultRooms : List String) : Retiring (opened defaultRooms) := by
  have tended := tended_opened defaultRooms
  refine ⟨tended.agreed.inOrder.furnished, tended.linked, tended.placed, fun c g found => ?_⟩
  rw [guest?_opened] at found
  contradiction

/-! ## Along a course -/

/-- What an event leaves of the names that are in use: each goes on standing for the queue it
stood for, or comes to do so, unless the event does something in another hall under the same
name. -/
structure Respects (w v : World) : Prop where
  /-- A client uses its queue from its registration until it has given the queue up. -/
  sessions : ∀ c client, v.client? c = some client →
    (∀ before, w.client? c = some before → Stands w c before.guest) →
    Spared w v client.standing → Stands v c client.guest
  /-- A room uses its queue as long as it is registered. -/
  rooms : ∀ h name r room, v.findRoom? h name = some r → v.room? r = some room →
    (w.findRoom? h name = some r → w.pool.find? (roomQueueName name) = some room.queue) →
    (∀ s other, v.room? s = some other → other.name = name → other.hall ≠ h →
      ¬ GivesUp w v s other) →
    v.pool.find? (roomQueueName name) = some room.queue

theorem Retiring.respects (h : Retiring w) {e : Event} (after : w.after? e = some v) :
    Respects w v where
  sessions c client found before spared := by
    have stir := stir_of_after? h.furnished h.linked h.placed after
    refine h.stands_stir stir (guest?_of_client found) (fun g known _ => ?_) spared
    obtain ⟨old, there, rfl⟩ := Option.map_eq_some_iff.1 known
    exact before old there
  rooms k name r room registered found before spared := by
    obtain ⟨deeds, change⟩ := change_of_after? h.furnished after
    exact change.moves.find?_roomQueueName h.furnished registered found before spared

/-- No client of another hall has ever had the id of this one. -/
def OwnsId (w : World) (s : Standing) : Prop :=
  ∀ d t, w.standing? d = some t → t.sessionId = s.sessionId → t.hall = s.hall

/-- The names of queues that are in use stand for them, as far as only one hall has come to each
name. -/
structure Separate (w : World) : Prop where
  steps : ∀ e v, w.after? e = some v → Respects w v
  sessions : ∀ c client, w.client? c = some client → OwnsId w client.standing →
    Stands w c client.guest
  rooms : RoomsKeyed w

/-- In every course of events of any number of halls on one pool, whatever is registered or given
up for a hall leaves the queues alone that are in use in the others, as long as the others have
not come to the same names. -/
theorem separate_of_course (defaultRooms : List String) (events : List Event) (w : World)
    (course : (opened defaultRooms).afterAll? events = some w) : Separate w := by
  let P (_ : List (RoomRef × RoomTask)) (w : World) : Prop :=
    Retiring w ∧ ∀ c client, w.client? c = some client → OwnsId w client.standing →
      Stands w c client.guest
  have start : P [] (opened defaultRooms) := by
    refine ⟨retiring_opened defaultRooms, fun c client found => ?_⟩
    have nobody := guest?_opened defaultRooms c
    rw [guest?_of_client found] at nobody
    contradiction
  have kept : P ([] ++ (opened defaultRooms).performed events) w := by
    refine @course_induction (opened defaultRooms) w [] P events ?_ start course
    rintro past w e v - ⟨retiring, stands⟩ after
    refine ⟨retiring.after after, fun c client found own => ?_⟩
    obtain ⟨deeds, change⟩ := change_of_after? retiring.furnished after
    have grown := change.moves.extends
    refine (retiring.respects after).sessions c client found (fun before known => ?_)
      fun d g there same elsewhere => ?_
    · have same := grown.standing c _ (standing?_of_client known)
      rw [standing?_of_client found] at same
      refine stands c before known fun d t there => ?_
      rw [← Option.some.inj same]
      exact own d t (grown.standing d t there)
    · exact absurd (own d _ (grown.standing d _ (standing?_of_guest there)) same) elsewhere
  exact ⟨fun e v after => kept.1.respects after, kept.2, roomsKeyed_of_course course⟩

/-- Two halls open on one pool; the second client of the first one is registered, and a client of
the second one comes, goes and retires. -/
def sideBySide : List Event :=
  [.openHall "lobby", .openHall "foyer", .accept 0, .start 0 true, .accept 0, .start 0 true,
    .accept 1, .start 1 true, .arrive 1, .arrive 1, .arrive 2, .arrive 2, .arrive 2, .depart 2,
    .depart 2, .depart 2, .work 4 0, .work 4 0, .work 4 0, .work 4 0]

/-- Who retires in one hall leaves the queue of a client of the other one under its name. -/
theorem separate_of_course_sideBySide :
    ∃ w client other, (opened []).afterAll? sideBySide = some w ∧
      w.client? 1 = some client ∧ client.hall = 0 ∧ w.usesQueue 1 client.guest = true ∧
      w.client? 2 = some other ∧ other.hall = 1 ∧ w.usesQueue 2 other.guest = false ∧
      w.pool.find? (sessionQueueName client.sessionId) = some client.queue := by
  have checked : ((opened []).afterAll? sideBySide).any (fun w =>
      (w.client? 1).any fun client => (w.client? 2).any fun other =>
        client.hall = 0 && w.usesQueue 1 client.guest && other.hall = 1 &&
          !w.usesQueue 2 other.guest &&
          w.state.clients.all fun third => third.sessionId ≠ client.sessionId || third.hall = 0) =
      true := by
    decide +kernel
  obtain ⟨w, course, checked⟩ := (Option.any_eq_true ..).1 checked
  obtain ⟨client, found, checked⟩ := (Option.any_eq_true ..).1 checked
  obtain ⟨other, there, checked⟩ := (Option.any_eq_true ..).1 checked
  simp only [Bool.and_eq_true, decide_eq_true_eq, Bool.not_eq_true', List.all_eq_true,
    Bool.or_eq_true] at checked
  obtain ⟨⟨⟨⟨hall, uses⟩, otherHall⟩, retired⟩, alone⟩ := checked
  have own : OwnsId w client.standing := by
    intro d t known same
    obtain ⟨third, hthird, rfl⟩ := Option.map_eq_some_iff.1 known
    rcases alone third (List.mem_of_getElem? hthird) with differs | here
    · exact absurd same differs
    · exact here.trans hall.symm
  have separate := separate_of_course [] sideBySide w course
  exact ⟨w, client, other, course, found, hall, uses, there, otherHall, retired,
    separate.sessions 1 client found own uses⟩

/-! ## Names that two halls come to -/

/-- After these events the name of a queue that a connected client uses stands for the queue; then
an event of a client of another hall takes the name away. -/
def LosesName (events : List Event) (e : Event) (c d : ClientRef) : Prop :=
  ∃ w v client other, (opened []).afterAll? events = some w ∧ w.after? e = some v ∧
    v.client? c = some client ∧ w.client? d = some other ∧ other.hall ≠ client.hall ∧
    (e = .arrive d ∨ e = .work other.queue 0) ∧
    client.link = .connected ∧ v.usesQueue c client.guest = true ∧
    w.pool.find? (sessionQueueName client.sessionId) = some client.queue ∧
    v.pool.find? (sessionQueueName client.sessionId) ≠ some client.queue

theorem losesName_of_any {events : List Event} {e : Event} {c d : ClientRef}
    (checked : ((opened []).afterAll? events).any (fun w => (w.after? e).any fun v =>
      (v.client? c).any fun client => (w.client? d).any fun other =>
        other.hall ≠ client.hall && (e = .arrive d || e = .work other.queue 0) &&
          client.link = .connected && v.usesQueue c client.guest &&
          w.pool.find? (sessionQueueName client.sessionId) = some client.queue &&
          v.pool.find? (sessionQueueName client.sessionId) ≠ some client.queue) = true) :
    LosesName events e c d := by
  obtain ⟨w, course, checked⟩ := (Option.any_eq_true ..).1 checked
  obtain ⟨v, after, checked⟩ := (Option.any_eq_true ..).1 checked
  obtain ⟨client, found, checked⟩ := (Option.any_eq_true ..).1 checked
  obtain ⟨other, there, checked⟩ := (Option.any_eq_true ..).1 checked
  simp only [Bool.and_eq_true, Bool.or_eq_true, decide_eq_true_eq] at checked
  obtain ⟨⟨⟨⟨⟨elsewhere, own⟩, connected⟩, uses⟩, before⟩, lost⟩ := checked
  exact ⟨w, v, client, other, course, after, found, there, elsewhere, own, connected, uses, before,
    lost⟩

/-- Each of two halls accepts its first client, and both clients get the id one. -/
def firstGuests : List Event :=
  [.openHall "lobby", .openHall "lobby", .accept 0, .start 0 true, .accept 1, .start 1 true]

/-- A room of this name stands under the name of its queue, and then another hall gives up a room
of the same name, and the room has members but no queue under its name. Nobody but the sessions
has asked for anything. -/
def LosesRoom (events : List Event) (e : Event) (h k : HallRef) (name : String) : Prop :=
  (∀ e ∈ events, e.bypasses = false) ∧ e.bypasses = false ∧
    ∃ w v r room, (opened []).afterAll? events = some w ∧ w.after? e = some v ∧ h ≠ k ∧
      v.findRoom? h name = some r ∧ v.room? r = some room ∧ 0 < room.members.size ∧
      w.findRoom? k name ≠ none ∧ v.findRoom? k name = none ∧
      w.pool.find? (roomQueueName name) = some room.queue ∧
      v.pool.find? (roomQueueName name) = none

theorem losesRoom_of_any {events : List Event} {e : Event} {h k : HallRef} {name : String}
    (asked : ∀ e ∈ events, e.bypasses = false) (asks : e.bypasses = false)
    (checked : ((opened []).afterAll? events).any (fun w => (w.after? e).any fun v =>
      (v.findRoom? h name).any fun r => (v.room? r).any fun room =>
        h ≠ k && 0 < room.members.size && w.findRoom? k name ≠ none && v.findRoom? k name = none &&
          w.pool.find? (roomQueueName name) = some room.queue &&
          v.pool.find? (roomQueueName name) = none) = true) :
    LosesRoom events e h k name := by
  obtain ⟨w, course, checked⟩ := (Option.any_eq_true ..).1 checked
  obtain ⟨v, after, checked⟩ := (Option.any_eq_true ..).1 checked
  obtain ⟨r, registered, checked⟩ := (Option.any_eq_true ..).1 checked
  obtain ⟨room, found, checked⟩ := (Option.any_eq_true ..).1 checked
  simp only [Bool.and_eq_true, decide_eq_true_eq] at checked
  obtain ⟨⟨⟨⟨⟨elsewhere, taken⟩, there⟩, gone⟩, before⟩, lost⟩ := checked
  exact ⟨asked, asks, w, v, r, room, course, after, elsewhere, registered, found, taken, there, gone,
    before, lost⟩

/-- Both first clients ask for a room of the same name. When they are in it the one of the first
hall leaves, and that room works off its jobs until only its vacancy is left to look at. -/
def sameRoom : List Event :=
  firstGuests ++ List.replicate 4 (.arrive 0) ++ List.replicate 4 (.arrive 1) ++
  [.packet 0 (.json "\x7b\"Type\":\"JoinRoom\",\"RoomId\":\"arena\"\x7d"),
    .packet 1 (.json "\x7b\"Type\":\"JoinRoom\",\"RoomId\":\"arena\"\x7d")] ++
  List.replicate 14 (.work 1 0) ++ List.replicate 14 (.work 2 0) ++
  [.packet 0 (.json "\x7b\"Type\":\"LeaveRoom\",\"RoomId\":\"arena\"\x7d")] ++
  List.replicate 7 (.work 1 0) ++ List.replicate 7 (.work 3 0)

/-- The first client of a hall loses the name of its queue to the first client of another hall when
that is registered, and also when that retires; and a room with members loses the name of its
queue when a room of the same name is given up in another hall. -/
theorem losesName_firstGuests_losesRoom :
    LosesName (firstGuests ++ [.arrive 0, .arrive 0, .arrive 1]) (.arrive 1) 0 1 ∧
      LosesName (firstGuests ++ [.arrive 1, .arrive 1, .arrive 1, .depart 1, .depart 1, .depart 1,
        .arrive 0, .arrive 0, .work 2 0, .work 2 0, .work 2 0]) (.work 2 0) 0 1 ∧
      LosesRoom sameRoom (.work 3 0) 1 0 "arena" :=
  ⟨losesName_of_any (by decide +kernel), losesName_of_any (by decide +kernel),
    losesRoom_of_any (by decide) (by decide) (by decide +kernel)⟩

end World

end ChatHall.Server
