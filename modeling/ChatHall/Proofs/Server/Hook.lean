/-
# Hooks

The life of a client in single steps: its session starts, its coming is taken
note of, packets arrive, it is disconnected, its going is taken note of, and its
session is given up. Every event is one such step for one client, or a client
comes, or a job of a session acts, or no guest notices anything. Each hook of a
session is several of these steps, and nothing but the senders of the events says
that the steps of one hook come after those of another.
-/

import ChatHall.Proofs.Server.Errand

namespace ChatHall.Server

/-- A step in the life of a client. -/
inductive Hook
  | start
  | attach
  | register
  | enlist
  | greet
  | receive (p : Wire.Packet)
  | close
  | delist
  | seeOff
  | release
  deriving Repr, DecidableEq

/-- The step that takes further note of a client that comes. -/
def Arrival.next? : Arrival → Option Hook
  | unnoticed => some .attach
  | attached => some .register
  | registered => some .enlist
  | enlisted => some .greet
  | greeted => none

/-- The step that takes further note of a client that goes. -/
def Departure.next? : Departure → Option Hook
  | unnoticed => some .close
  | closing => some .delist
  | delisted => some .seeOff
  | seenOff => none

namespace Hook

def call? : Hook → Option SessionTask
  | greet => some .welcome
  | receive (.binary id payload) => some (.packet id payload)
  | receive (.json text) => some (.command text)
  | seeOff => some .farewell
  | _ => none

/-- Whether a step concerns neither a hall nor the name of a queue. -/
def isPlain : Hook → Bool
  | start | register | enlist | delist => false
  | _ => true

/-- Who is among the sessions under the id of a client after a step. -/
def listing (c : ClientRef) (before : Option ClientRef) : Hook → Option ClientRef
  | enlist => some c
  | delist => none
  | _ => before

/-- The event that a step of a client is, where it can be no other one. -/
def event? (c : ClientRef) : Hook → Option Event
  | attach | register | enlist | greet => some (.arrive c)
  | receive p => some (.packet c p)
  | release => some (.release c)
  | _ => none

theorem listing_of_isPlain {hook : Hook} (plain : hook.isPlain = true) (c : ClientRef)
    (before : Option ClientRef) : hook.listing c before = before := by
  cases hook with
  | start | register | enlist | delist => contradiction
  | _ => rfl

end Hook

namespace Guest

def isConnected (g : Guest) : Bool := g.arrival ≠ .unnoticed && g.link = .connected

/-- Whether a guest is where a step may be the next one. -/
def fits (g : Guest) : Hook → Bool
  | .start => g.link = .none && g.departure = .unnoticed
  | .attach => g.arrival = .unnoticed
  | .register => g.arrival = .attached
  | .enlist => g.arrival = .registered
  | .greet => g.arrival = .enlisted
  | .receive _ => g.arrival = .greeted
  | .close => g.isConnected
  | .delist => g.departure = .closing
  | .seeOff => g.departure = .delisted
  | .release => g.departure = .seenOff

def after (g : Guest) : Hook → Guest
  | .start => { g with link := .connected }
  | .attach => { g with arrival := .attached }
  | .register => { g with arrival := .registered }
  | .enlist => { g with arrival := .enlisted }
  | .greet => { g with arrival := .greeted }
  | .receive _ => g
  | .close => if g.link = .connected then { g with link := .closed, departure := .closing } else g
  | .delist => { g with departure := .delisted }
  | .seeOff => { g with departure := .seenOff }
  | .release => if g.link = .closed then { g with link := .none } else g

@[simp]
theorem standing_after (g : Guest) (hook : Hook) : (g.after hook).standing = g.standing := by
  cases hook with
  | close => exact apply_ite Guest.standing _ _ _ |>.trans (ite_self _)
  | release => exact apply_ite Guest.standing _ _ _ |>.trans (ite_self _)
  | _ => rfl

@[simp]
theorem room_after (g : Guest) (hook : Hook) : (g.after hook).room = g.room := by
  cases hook with
  | close => exact apply_ite Guest.room _ _ _ |>.trans (ite_self _)
  | release => exact apply_ite Guest.room _ _ _ |>.trans (ite_self _)
  | _ => rfl

/-- An open link goes with a client that is not on the way out. -/
theorem connected_after {g : Guest} {hook : Hook} (fits : g.fits hook = true)
    (before : g.link = .connected → g.departure = .unnoticed)
    (connected : (g.after hook).link = .connected) : (g.after hook).departure = .unnoticed := by
  cases hook with
  | start =>
      simp only [Guest.fits, Bool.and_eq_true, decide_eq_true_eq] at fits
      exact fits.2
  | close =>
      rw [Guest.after] at connected ⊢
      split at connected
      · contradiction
      · contradiction
  | delist =>
      have closing : g.departure = .closing := of_decide_eq_true fits
      rw [before connected] at closing
      contradiction
  | seeOff =>
      have delisted : g.departure = .delisted := of_decide_eq_true fits
      rw [before connected] at delisted
      contradiction
  | release =>
      rw [Guest.after] at connected ⊢
      split at connected
      · contradiction
      · next other =>
          rw [if_neg other]
          exact before connected
  | _ => exact before connected

/-- Whoever has not started keeps out of everything but the start. -/
theorem unlinked_after {g : Guest} {hook : Hook} (fits : g.fits hook = true)
    (other : hook ≠ .start) (unlinked : g.link = .none) (unnoticed : g.departure = .unnoticed) :
    (g.after hook).link = .none ∧ (g.after hook).departure = .unnoticed := by
  cases hook with
  | start => exact absurd rfl other
  | close =>
      rw [Guest.after, if_neg (by rw [unlinked]; exact Link.noConfusion)]
      exact ⟨unlinked, unnoticed⟩
  | delist =>
      have closing : g.departure = .closing := of_decide_eq_true fits
      rw [unnoticed] at closing
      contradiction
  | seeOff =>
      have delisted : g.departure = .delisted := of_decide_eq_true fits
      rw [unnoticed] at delisted
      contradiction
  | release =>
      rw [Guest.after, if_neg (by rw [unlinked]; exact Link.noConfusion)]
      exact ⟨unlinked, unnoticed⟩
  | _ => exact ⟨unlinked, unnoticed⟩

/-- A farewell is final. -/
theorem seenOff_after {g : Guest} {hook : Hook} (gone : (g.after hook).departure = .seenOff) :
    g.departure = .seenOff ∨ hook = .seeOff := by
  cases hook with
  | seeOff => exact .inr rfl
  | close =>
      rw [Guest.after] at gone
      split at gone
      · contradiction
      · exact .inl gone
  | delist => contradiction
  | release =>
      rw [Guest.after] at gone
      split at gone <;> exact .inl gone
  | _ => exact .inl gone

end Guest

namespace World

variable {w v u x : World} {c : ClientRef} {g : Guest} {hook : Hook}

/-- The step that an event is, if any, and for whom. -/
def hook? (w : World) : Event → Option (ClientRef × Hook)
  | .start h works => if works then (w.inHand? h).map (·, .start) else none
  | .arrive c => (w.guest? c).bind fun g => g.arrival.next?.map (c, ·)
  | .packet c p => some (c, .receive p)
  | .depart c => (w.guest? c).bind fun g => g.departure.next?.map (c, ·)
  | .release c => some (c, .release)
  | .dismiss h =>
    match (w.hall? h).bind Hall.dismissing with
    | some (c :: _) => if (w.guest? c).any Guest.isConnected then some (c, .close) else none
    | _ => none
  | _ => none

/-- The step of a client that an event is, with what makes it one. -/
inductive Takes (w : World) : Event → ClientRef → Hook → Prop
  | start (h : HallRef) (c : ClientRef) (held : w.inHand? h = some c) :
      Takes w (.start h true) c .start
  | arrive (c : ClientRef) (g : Guest) (hook : Hook) (found : w.guest? c = some g)
      (next : g.arrival.next? = some hook) : Takes w (.arrive c) c hook
  | packet (c : ClientRef) (p : Wire.Packet) : Takes w (.packet c p) c (.receive p)
  | depart (c : ClientRef) (g : Guest) (hook : Hook) (found : w.guest? c = some g)
      (next : g.departure.next? = some hook) : Takes w (.depart c) c hook
  | release (c : ClientRef) : Takes w (.release c) c .release
  | dismiss (h : HallRef) (d : Door) (c : ClientRef) (later : List ClientRef)
      (door : w.door? h = some d) (dismissing : d.dismissing = some (c :: later))
      (connected : (w.guest? c).any Guest.isConnected = true) : Takes w (.dismiss h) c .close

theorem takes_of_hook? {e : Event} (step : w.hook? e = some (c, hook)) : Takes w e c hook := by
  cases e with
  | start h works =>
      simp only [hook?, Option.ite_none_right_eq_some, Option.map_eq_some_iff, Prod.mk.injEq]
        at step
      obtain ⟨rfl, d, held, rfl, rfl⟩ := step
      exact .start h d held
  | arrive d =>
      simp only [hook?, Option.bind_eq_some_iff, Option.map_eq_some_iff, Prod.mk.injEq] at step
      obtain ⟨g, found, hook, next, rfl, rfl⟩ := step
      exact .arrive d g hook found next
  | packet d p =>
      obtain ⟨rfl, rfl⟩ := Prod.mk.inj (Option.some.inj step)
      exact .packet d p
  | depart d =>
      simp only [hook?, Option.bind_eq_some_iff, Option.map_eq_some_iff, Prod.mk.injEq] at step
      obtain ⟨g, found, hook, next, rfl, rfl⟩ := step
      exact .depart d g hook found next
  | release d =>
      obtain ⟨rfl, rfl⟩ := Prod.mk.inj (Option.some.inj step)
      exact .release d
  | dismiss h =>
      rw [hook?] at step
      split at step
      · next d later dismissing =>
          rw [Option.ite_none_right_eq_some, Option.some.injEq, Prod.mk.injEq] at step
          obtain ⟨connected, rfl, rfl⟩ := step
          obtain ⟨hall, found, seen⟩ := Option.bind_eq_some_iff.1 dismissing
          have door : w.door? h = some hall.door := by
            rw [door?, found]
            rfl
          exact .dismiss h hall.door d later door seen connected
      · contradiction
  | _ => contradiction

/-- A step that only one event can be tells which event it was. -/
theorem eq_of_hook? {e e' : Event} (step : w.hook? e = some (c, hook))
    (only : hook.event? c = some e') : e = e' := by
  cases takes_of_hook? step with
  | start | dismiss => contradiction
  | packet | release => exact Option.some.inj only
  | arrive c g hook found next =>
      cases arrival : g.arrival <;> rw [arrival] at next <;> cases next <;>
        exact Option.some.inj only
  | depart c g hook found next =>
      cases departure : g.departure <;> rw [departure] at next <;> cases next <;> contradiction

/-! ## The life of one client -/

/-- Only somebody who is not on the way out has an open link, or has still to start. -/
structure Linked (w : World) : Prop where
  connected : ∀ c g, w.guest? c = some g → g.link = .connected → g.departure = .unnoticed
  inHand : ∀ h c, w.inHand? h = some c → ∃ g, w.guest? c = some g ∧ g.standing.hall = h ∧
    g.link = .none ∧ g.departure = .unnoticed

/-- A step in the life of one client. -/
structure Lives (w : World) (c : ClientRef) (g : Guest) (hook : Hook) (v : World) : Prop where
  found : w.guest? c = some g
  fits : g.fits hook = true
  guest? : ∀ d, v.guest? d = if d = c then some (g.after hook) else w.guest? d
  inHand? : ∀ h d, v.inHand? h = some d → w.inHand? h = some d ∧ (hook = .start → d ≠ c)
  session? : ∀ h k, v.session? h k =
    if h = g.standing.hall ∧ k = g.standing.sessionId then hook.listing c (w.session? h k)
    else w.session? h k
  named : ∀ k, v.pool.find? (sessionQueueName k) =
    if hook = .register ∧ sessionQueueName k = sessionQueueName g.standing.sessionId then
      some g.standing.queue
    else w.pool.find? (sessionQueueName k)
  duties : ∀ q, v.duties q =
    if g.standing.queue = q then w.duties q ++ hook.call?.toList.map (c, ·) else w.duties q

theorem guest?_after (found : w.guest? c = some g) (same : ∀ d, x.guest? d = w.guest? d)
    {f : Client → Client} (acts : ∀ client, (f client).guest = client.guest.after hook)
    (d : ClientRef) :
    (x.modifyClient c f).guest? d = if d = c then some (g.after hook) else w.guest? d := by
  rw [guest?_modifyClient x c d (g := (·.after hook)) acts, same]
  by_cases own : c = d
  · rw [if_pos own, if_pos own.symm, ← own, found]
    rfl
  · rw [if_neg own, if_neg (Ne.symm own)]

/-- A step that changes the client alone. -/
theorem lives_modifyClient (found : w.guest? c = some g) (fits : g.fits hook = true)
    (plain : hook.isPlain = true) (silent : hook.call? = none) (steady : Steady w x)
    {f : Client → Client} (acts : ∀ client, (f client).guest = client.guest.after hook) :
    Lives w c g hook (x.modifyClient c f) where
  found := found
  fits := fits
  guest? := guest?_after found steady.guest? acts
  inHand? h d held := ⟨steady.inHand? h d held, by rintro rfl; contradiction⟩
  session? h k := by
    rw [Hook.listing_of_isPlain plain, ite_self]
    exact steady.session? h k
  named k := by
    rw [if_neg]
    · exact steady.named k
    · rintro ⟨rfl, -⟩
      contradiction
  duties q := by
    rw [silent]
    change x.duties q = if _ then w.duties q ++ [] else w.duties q
    rw [List.append_nil, ite_self]
    exact steady.duties q

theorem lives_close {client : Client} (found : w.client? c = some client)
    (connected : client.isConnected = true) (steady : Steady w x) :
    Lives w c client.guest .close (x.close c) := by
  have fits : client.guest.fits .close = true := connected
  exact lives_modifyClient (guest?_of_client found) fits rfl rfl steady
    fun _ => apply_ite Client.guest _ _ _

theorem lives_release {client : Client} (found : w.client? c = some client)
    (seenOff : client.departure = .seenOff) : Lives w c client.guest .release (w.release c) := by
  have fits : client.guest.fits .release = true := decide_eq_true seenOff
  exact lives_modifyClient (guest?_of_client found) fits rfl rfl (Steady.refl w)
    fun _ => apply_ite Client.guest _ _ _

/-- A step that pushes a task to the queue of the session. -/
theorem lives_push (furnished : Furnished w) {client : Client}
    (found : w.client? c = some client) (fits : client.guest.fits hook = true)
    (plain : hook.isPlain = true) {task : SessionTask} (calls : hook.call? = some task)
    {f : Client → Client} (acts : ∀ client, (f client).guest = client.guest.after hook) :
    Lives w c client.guest hook ((w.pushToSession c task).modifyClient c f) := by
  have pushed : w.pushToSession c task = w.push client.queue (.session c task) := by
    rw [pushToSession, found]
  obtain ⟨queue, known, -⟩ : ∃ queue, w.pool.queue? client.queue = some queue ∧ _ :=
    Option.map_eq_some_iff.1 (furnished.queueOfClient c _ (standing?_of_client found))
  rw [pushed]
  exact {
    found := guest?_of_client found
    fits := fits
    guest? := guest?_after (guest?_of_client found) (fun _ => rfl) acts
    inHand? := fun h d held => ⟨held, by rintro rfl; contradiction⟩
    session? := fun h k => by
      rw [Hook.listing_of_isPlain plain, ite_self]
      rfl
    named := fun k => by
      rw [if_neg]
      · rfl
      · rintro ⟨rfl, -⟩
        contradiction
    duties := fun q => by
      have appended := awaiting_push w known q (.session c task)
      have executed := executing_push w client.queue q (.session c task)
      change duties (w.push client.queue (.session c task)) q = _
      rw [duties_eq, performing, executed, appended, calls, duties_eq, performing]
      split
      · next here =>
          rw [← List.append_assoc]
          exact (if_pos here).symm
      · next other => exact (if_neg other).symm }

theorem modifyClient_id (w : World) (c : ClientRef) : w.modifyClient c id = w := by
  rw [modifyClient, mapHouse, Jobs.Realm.updateState, List.modify_id]

/-- A packet that arrives is pushed to the queue of the session. -/
theorem lives_dispatch (furnished : Furnished w) {client : Client}
    (found : w.client? c = some client) (greeted : client.arrival = .greeted) (p : Wire.Packet) :
    Lives w c client.guest (.receive p) (w.dispatch c p) := by
  have fits : client.guest.fits (.receive p) = true := decide_eq_true greeted
  rw [← modifyClient_id (w.dispatch c p) c]
  cases p with
  | binary id payload => exact lives_push furnished found fits rfl rfl fun _ => rfl
  | json text => exact lives_push furnished found fits rfl rfl fun _ => rfl

/-- The session of the client in hand starts. -/
theorem lives_start (linked : Linked w) {h : HallRef} (held : w.inHand? h = some c) :
    ∃ g, Lives w c g .start
      ((w.modifyHall h fun hall => { hall with inHand := none }).startSession c) := by
  obtain ⟨g, found, hall, unlinked, unnoticed⟩ := linked.inHand h c held
  have steady : Steady w (w.modifyHall h fun hall => { hall with inHand := none }) :=
    steady_modifyHall w h (fun _ => rfl) fun _ _ => (nomatch ·)
  refine ⟨g, found, ?_, guest?_after found steady.guest? fun _ => rfl, fun k d holds => ?_, ?_,
    ?_, ?_⟩
  · rw [Guest.fits, unlinked, unnoticed]
    rfl
  · refine ⟨steady.inHand? k d holds, fun _ same => ?_⟩
    obtain ⟨other, hother, where_, -⟩ := linked.inHand k d (steady.inHand? k d holds)
    rw [same, found] at hother
    obtain rfl := Option.some.inj hother
    have emptied : (w.modifyHall h fun hall => { hall with inHand := none }).inHand? k = some d :=
      holds
    rw [inHand?_modifyHall, if_pos (hall.symm.trans where_)] at emptied
    obtain ⟨_, -, none_held⟩ := Option.bind_eq_some_iff.1 emptied
    contradiction
  · intro k sessionId
    exact (steady.session? k sessionId).trans (ite_self _).symm
  · intro k
    rw [if_neg (by simp)]
    rfl
  · intro q
    change w.duties q = if _ then w.duties q ++ [] else w.duties q
    rw [List.append_nil, ite_self]

/-- The queue of the client is registered. -/
theorem lives_register (furnished : Furnished w) {client : Client}
    (found : w.client? c = some client) (fits : client.guest.fits .register = true) :
    Lives w c client.guest .register (w.registerQueue c) := by
  obtain ⟨queue, known, named⟩ := Option.map_eq_some_iff.1
    (furnished.queueOfClient c _ (standing?_of_client found))
  have registered := Jobs.Pool.find?_register known
  rw [registerQueue, found]
  exact {
    found := guest?_of_client found
    fits := fits
    guest? := guest?_after (x := w.withPool (w.pool.register client.queue))
      (guest?_of_client found) (fun _ => rfl) fun _ => rfl
    inHand? := fun h d held => ⟨held, fun wrong => Hook.noConfusion wrong⟩
    session? := fun h k => (ite_self _).symm
    named := fun k => by
      have there := registered (sessionQueueName k)
      rw [named] at there
      simp only [true_and]
      exact there
    duties := fun q => by
      have aside : Aside w (w.withPool (w.pool.register client.queue)) :=
        aside_of_queues (fun _ => rfl) (fun _ => rfl)
          fun q => .inl (Jobs.Pool.queue?_register client.queue q)
      change (w.withPool (w.pool.register client.queue)).duties q =
        if _ then w.duties q ++ [] else w.duties q
      rw [List.append_nil, ite_self]
      exact aside.duties q }

/-- The client is put among the sessions of its hall or taken off them. -/
theorem lives_listing (furnished : Furnished w) {client : Client}
    (found : w.client? c = some client) (fits : client.guest.fits hook = true)
    (sessions : Table Nat ClientRef → Table Nat ClientRef)
    (lists : ∀ table k, (sessions table).find? k =
      if k = client.sessionId then hook.listing c (table.find? k) else table.find? k)
    (other : hook = .enlist ∨ hook = .delist) {f : Client → Client}
    (acts : ∀ client, (f client).guest = client.guest.after hook) :
    Lives w c client.guest hook ((w.modifyHall client.hall fun hall =>
      { hall with sessions := sessions hall.sessions }).modifyClient c f) := by
  have silent : hook.call? = none := by rcases other with rfl | rfl <;> rfl
  exact {
    found := guest?_of_client found
    fits := fits
    guest? := guest?_after (x := w.modifyHall client.hall fun hall =>
      { hall with sessions := sessions hall.sessions }) (guest?_of_client found) (fun _ => rfl) acts
    inHand? := fun h d held => by
      refine ⟨?_, by rintro rfl; rcases other with wrong | wrong <;> contradiction⟩
      have before : (w.modifyHall client.hall fun hall =>
          { hall with sessions := sessions hall.sessions }).inHand? h = some d := held
      rw [inHand?_modifyHall] at before
      split at before <;> exact before
    session? := fun h k => by
      have listed := session?_modifyHall w client.hall h
        (fun hall => { hall with sessions := sessions hall.sessions }) k
      refine listed.trans ?_
      by_cases here : client.hall = h
      · obtain ⟨register, hregister, -⟩ :=
          furnished.hallOfClient c _ (standing?_of_client found)
        obtain ⟨hall, hhall, -⟩ := Option.map_eq_some_iff.1 hregister
        have there : w.hall? h = some hall := here ▸ hhall
        rw [if_pos here, World.session?, there, Option.bind_some, Option.bind_some, lists]
        by_cases own : k = client.sessionId
        · rw [if_pos own, if_pos ⟨here.symm, own⟩]
        · rw [if_neg own, if_neg fun both => own both.2]
      · rw [if_neg here, if_neg fun both => here both.1.symm]
    named := fun k => by
      rw [if_neg]
      · rfl
      · rintro ⟨rfl, -⟩
        rcases other with wrong | wrong <;> contradiction
    duties := fun q => by
      rw [silent]
      change w.duties q = if _ then w.duties q ++ [] else w.duties q
      rw [List.append_nil, ite_self] }

end World

end ChatHall.Server
