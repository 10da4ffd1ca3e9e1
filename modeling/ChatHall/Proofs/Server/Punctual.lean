/-
# Hooks in their order

Every session passes on the coming of its client, then packets, then the end. If each
does so, however the steps of different sessions mix, nobody has anything to do, or is
in a room, before the welcome, and nothing is pushed behind a farewell. The sessions
of a hall are those of clients whose end has not been noted, and a name of a session's
queue is that of a client that has still to retire.
-/

import ChatHall.Proofs.Server.Farewell

namespace ChatHall.Server

/-- How many steps have been taken in noting that a client comes. -/
def Arrival.steps : Arrival → Nat
  | unnoticed => 0
  | attached => 1
  | registered => 2
  | enlisted => 3
  | greeted => 4

theorem Arrival.eq_greeted {a : Arrival} (all : 4 ≤ a.steps) : a = .greeted := by
  cases a with
  | greeted => rfl
  | _ => contradiction

/-- Whether the end of a connection has been passed on. -/
def Departure.isNoted : Departure → Bool
  | delisted | seenOff => true
  | _ => false

namespace Guest

variable {g : Guest} {hook : Hook}

/-- Whether a step comes in its turn: packets are passed on before the end of the connection is,
and that after the coming has been. -/
def isDue (g : Guest) : Hook → Bool
  | .receive _ => !g.departure.isNoted
  | .delist => g.arrival = .greeted
  | _ => true

/-- Nothing that has been noted of the coming is forgotten. -/
theorem steps_le_after (fits : g.fits hook = true) :
    g.arrival.steps ≤ (g.after hook).arrival.steps := by
  cases hook with
  | attach =>
      have arrival : g.arrival = .unnoticed := of_decide_eq_true fits
      exact arrival ▸ Nat.zero_le _
  | register =>
      have arrival : g.arrival = .attached := of_decide_eq_true fits
      rw [arrival]
      exact Nat.le_succ 1
  | enlist =>
      have arrival : g.arrival = .registered := of_decide_eq_true fits
      rw [arrival]
      exact Nat.le_succ 2
  | greet =>
      have arrival : g.arrival = .enlisted := of_decide_eq_true fits
      rw [arrival]
      exact Nat.le_succ 3
  | close =>
      rw [Guest.after]
      split <;> exact Nat.le_refl _
  | release =>
      rw [Guest.after]
      split <;> exact Nat.le_refl _
  | _ => exact Nat.le_refl _

/-- The end is noted in a single step. -/
theorem noted_after (fits : g.fits hook = true) (noted : (g.after hook).departure.isNoted = true) :
    g.departure.isNoted = true ∨ hook = .delist := by
  cases hook with
  | close =>
      rw [Guest.after] at noted
      split at noted
      · contradiction
      · exact .inl noted
  | delist => exact .inr rfl
  | seeOff =>
      have departure : g.departure = .delisted := of_decide_eq_true fits
      exact .inl (departure ▸ rfl)
  | release =>
      rw [Guest.after] at noted
      split at noted <;> exact .inl noted
  | _ => exact .inl noted

end Guest

namespace World

variable {w v u : World} {past : List (RoomRef × RoomTask)} {deeds : List Deed} {e : Event}

/-- Whether the hooks of every session come one after the other. -/
def inSequence (w : World) (e : Event) : Bool :=
  (w.hook? e).all fun (c, hook) => (w.guest? c).all fun g => g.isDue hook

theorem isDue_of_inSequence (sequence : inSequence w e = true) {c : ClientRef} {hook : Hook}
    {g : Guest} (step : w.hook? e = some (c, hook)) (found : w.guest? c = some g) :
    g.isDue hook = true := by
  rw [inSequence, step, Option.all_some] at sequence
  dsimp only at sequence
  rw [found] at sequence
  exact sequence

/-! ## Nobody goes before having come -/

/-- The end of a connection is noted after the welcome, and before it the client is in no room and
has nothing to do. -/
structure Punctual (w : World) : Prop where
  late : ∀ c g, w.guest? c = some g → g.departure.isNoted = true → g.arrival = .greeted
  idle : ∀ c g, w.guest? c = some g → g.arrival ≠ .greeted →
    g.room = none ∧ ∀ q t, (c, t) ∉ w.duties q

/-- Whoever is called to a job has been welcomed. -/
theorem Punctual.greeted_of_call (h : Punctual w) {c : ClientRef} {g : Guest} {hook : Hook}
    (found : w.guest? c = some g) (fits : g.fits hook = true) {task : SessionTask}
    (calls : task ∈ hook.call?) : (g.after hook).arrival = .greeted := by
  cases hook with
  | greet => rfl
  | receive p => exact of_decide_eq_true fits
  | seeOff =>
      have departure : g.departure = .delisted := of_decide_eq_true fits
      exact h.late c g found (departure ▸ rfl)
  | _ => contradiction

theorem Punctual.late_stir (h : Punctual w) (sequence : inSequence w e = true)
    (stir : Stir w v (w.hook? e)) {c : ClientRef} {g : Guest} (found : v.guest? c = some g)
    (noted : g.departure.isNoted = true) : g.arrival = .greeted := by
  cases stir.stems found with
  | new => contradiction
  | kept g room before => exact h.late c g before noted
  | stepped g hook before fits own =>
      have greeted : g.arrival = .greeted := by
        rcases Guest.noted_after fits noted with already | rfl
        · exact h.late c g before already
        · exact of_decide_eq_true (isDue_of_inSequence sequence own before)
      have steps := Guest.steps_le_after fits
      rw [greeted] at steps
      exact Arrival.eq_greeted steps

theorem Punctual.idle_lives (h : Punctual w) {c d : ClientRef} {g after : Guest} {hook : Hook}
    (lives : Lives w c g hook v) (found : v.guest? d = some after)
    (early : after.arrival ≠ .greeted) : after.room = none ∧ ∀ q t, (d, t) ∉ v.duties q := by
  rw [lives.guest?] at found
  split at found
  · next own =>
      obtain rfl := Option.some.inj found
      have before : g.arrival ≠ .greeted := by
        intro greeted
        have steps := Guest.steps_le_after lives.fits
        rw [greeted] at steps
        exact early (Arrival.eq_greeted steps)
      obtain ⟨nowhere, free⟩ := h.idle c g lives.found before
      refine ⟨(Guest.room_after g hook).trans nowhere, fun q t duty => ?_⟩
      rcases lives.duty_before duty with old | ⟨-, calls⟩
      · exact free q t (own ▸ old)
      · exact early (h.greeted_of_call lives.found lives.fits calls)
  · next other =>
      obtain ⟨nowhere, free⟩ := h.idle d after found early
      refine ⟨nowhere, fun q t duty => ?_⟩
      rcases lives.duty_before duty with old | ⟨own, -⟩
      · exact free q t old
      · exact other own

theorem Punctual.stir (h : Punctual w) (tended : Tended past w) (sequence : inSequence w e = true)
    (stir : Stir w v (w.hook? e)) : Punctual v := by
  refine ⟨fun c g found => h.late_stir sequence stir found, fun c g found early => ?_⟩
  generalize w.hook? e = hook at stir
  cases stir with
  | steady same =>
      rw [same.guest?] at found
      obtain ⟨nowhere, free⟩ := h.idle c g found early
      refine ⟨nowhere, fun q t duty => ?_⟩
      rw [same.duties] at duty
      exact free q t duty
  | comes i comes =>
      obtain ⟨s, -, guests⟩ := comes.guest?
      rw [guests] at found
      split at found
      · next new =>
          obtain rfl := Option.some.inj found
          refine ⟨rfl, fun q t duty => ?_⟩
          rw [comes.duties] at duty
          obtain ⟨s, known, -⟩ := tended.placed q c t duty
          rw [new, standing?, client?_length] at known
          contradiction
      · obtain ⟨nowhere, free⟩ := h.idle c g found early
        refine ⟨nowhere, fun q t duty => ?_⟩
        rw [comes.duties] at duty
        exact free q t duty
  | lives d g' hook lives => exact h.idle_lives lives found early
  | acts d client task next acts =>
      obtain ⟨seat, -, guests⟩ := acts.guest?
      rw [guests] at found
      split at found
      · obtain rfl := Option.some.inj found
        have own := guest?_of_client acts.found
        exact absurd acts.job ((h.idle d client.guest own early).2 _ _)
      · next other =>
          obtain ⟨nowhere, free⟩ := h.idle c g found early
          exact ⟨nowhere, fun q t duty => free q t (acts.duty_before duty other)⟩

/-- Nothing that comes in its turn is pushed behind a farewell. -/
theorem Punctual.isTimely (h : Punctual w) (sequence : inSequence w e = true)
    (stir : Stir w v (w.hook? e)) : isTimely w e = true := by
  rw [World.isTimely]
  generalize step : w.hook? e = hook at stir
  cases stir with
  | lives c g hook lives =>
      have due := isDue_of_inSequence sequence step lives.found
      have stays (present : g.departure ≠ .seenOff) :
          (hook.call?.all (fun task => !task.mayEnter) ||
            (w.guest? c).all fun g => g.departure ≠ .seenOff) = true := by
        rw [lives.found, Option.all_some, decide_eq_true present, Bool.or_true]
      cases hook with
      | greet =>
          refine stays fun gone => ?_
          have arrival : g.arrival = .enlisted := of_decide_eq_true lives.fits
          have greeted := h.late c g lives.found (gone ▸ rfl)
          rw [arrival] at greeted
          contradiction
      | receive p =>
          refine stays fun gone => ?_
          rw [Guest.isDue, gone] at due
          contradiction
      | _ => rfl
  | _ => rfl

/-! ## What is registered is registered for somebody -/

/-- A session is that of a client that has been put among them and whose end has not been noted. -/
def Enlisted (w : World) : Prop :=
  ∀ h k c, w.session? h k = some c → ∃ g, w.guest? c = some g ∧ g.standing.hall = h ∧
    g.standing.sessionId = k ∧ 3 ≤ g.arrival.steps ∧ g.departure.isNoted = false

/-- Nobody goes before having been put among the sessions. -/
def Bides (w : World) : Prop :=
  ∀ c g, w.guest? c = some g → g.departure.isNoted = true → 3 ≤ g.arrival.steps

theorem Punctual.bides (h : Punctual w) : Bides w := by
  intro c g found noted
  rw [h.late c g found noted]
  exact Nat.le_succ 3

theorem Enlisted.lives (h : Enlisted w) (bides : Bides w) {c : ClientRef} {g : Guest}
    {hook : Hook} (lives : Lives w c g hook v) : Enlisted v := by
  intro i k d listed
  have steps := Guest.steps_le_after lives.fits
  -- Whoever stood in the list before stands there for the same reason, or is taken off it.
  have before (there : w.session? i k = some d)
      (stays : hook = .delist → ¬ (i = g.standing.hall ∧ k = g.standing.sessionId)) :
      ∃ g, v.guest? d = some g ∧ g.standing.hall = i ∧ g.standing.sessionId = k ∧
        3 ≤ g.arrival.steps ∧ g.departure.isNoted = false := by
    obtain ⟨g', found, hall, sessionId, came, present⟩ := h i k d there
    rw [lives.guest?]
    split
    · next own =>
        subst own
        obtain rfl := Option.some.inj (lives.found.symm.trans found)
        refine ⟨_, rfl, by rw [Guest.standing_after, hall], by rw [Guest.standing_after, sessionId],
          Nat.lt_of_lt_of_le came steps, eq_false_of_ne_true fun noted => ?_⟩
        rcases Guest.noted_after lives.fits noted with already | delists
        · rw [present] at already
          contradiction
        · exact stays delists ⟨hall.symm, sessionId.symm⟩
    · exact ⟨g', found, hall, sessionId, came, present⟩
  rw [lives.session?] at listed
  split at listed
  · next own =>
      cases hook with
      | enlist =>
          obtain rfl := Option.some.inj listed
          have arrival : g.arrival = .registered := of_decide_eq_true lives.fits
          refine ⟨_, (lives.guest? c).trans (if_pos rfl), own.1.symm, own.2.symm, Nat.le_refl 3,
            eq_false_of_ne_true fun noted => ?_⟩
          have enlisted := bides c g lives.found noted
          rw [arrival] at enlisted
          contradiction
      | delist => contradiction
      | _ => exact before listed (fun delists => Hook.noConfusion delists)
  · next other => exact before listed fun _ => other

theorem Enlisted.stir (h : Enlisted w) (bides : Bides w)
    {hook : Option (ClientRef × Hook)} (stir : Stir w v hook) : Enlisted v := by
  cases stir with
  | steady same =>
      intro i k c listed
      rw [same.session?] at listed
      obtain ⟨g, found, rest⟩ := h i k c listed
      exact ⟨g, (same.guest? c).trans found, rest⟩
  | comes i comes =>
      intro i k c listed
      rw [comes.session?] at listed
      obtain ⟨g, found, rest⟩ := h i k c listed
      exact ⟨g, comes.guest?_of_some found, rest⟩
  | lives c g hook lives => exact h.lives bides lives
  | acts c client task next acts =>
      intro i k d listed
      rw [acts.session?] at listed
      obtain ⟨g, found, rest⟩ := h i k d listed
      obtain ⟨room, there⟩ := acts.guest?_of_some found
      exact ⟨_, there, rest⟩

/-- The name of a session's queue is that of a client that has still to retire. -/
def Named (w : World) : Prop :=
  ∀ k, (w.pool.find? (sessionQueueName k)).isSome → ∃ c g, w.guest? c = some g ∧
    sessionQueueName g.standing.sessionId = sessionQueueName k ∧ 2 ≤ g.arrival.steps ∧
    (g.departure = .seenOff → ∃ t, (c, t) ∈ w.duties g.standing.queue ∧ t.isRetiring = true)

theorem Named.lives (h : Named w) (punctual : Punctual w) {c : ClientRef} {g : Guest}
    {hook : Hook} (lives : Lives w c g hook v) : Named v := by
  intro k named
  rw [lives.named] at named
  split at named
  · next own =>
      obtain ⟨rfl, name⟩ := own
      refine ⟨c, _, (lives.guest? c).trans (if_pos rfl), name.symm, Nat.le_refl _, fun gone => ?_⟩
      have arrival : g.arrival = .attached := of_decide_eq_true lives.fits
      have gone : g.departure = .seenOff := gone
      have greeted := punctual.late c g lives.found (gone ▸ rfl)
      rw [arrival] at greeted
      contradiction
  · obtain ⟨d, g', found, name, came, retires⟩ := h k named
    by_cases own : d = c
    · subst own
      obtain rfl := Option.some.inj (lives.found.symm.trans found)
      refine ⟨d, _, (lives.guest? d).trans (if_pos rfl), ?_,
        Nat.le_trans came (Guest.steps_le_after lives.fits), fun gone => ?_⟩
      · rwa [Guest.standing_after]
      · rw [Guest.standing_after]
        rcases Guest.seenOff_after gone with already | rfl
        · obtain ⟨t, duty, retiring⟩ := retires already
          exact ⟨t, lives.duty_after duty, retiring⟩
        · refine ⟨.farewell, ?_, rfl⟩
          rw [lives.duties, if_pos rfl]
          exact List.mem_append_right _ List.mem_cons_self
    · refine ⟨d, g', ((lives.guest? d).trans (if_neg own)).trans found, name, came, fun gone => ?_⟩
      obtain ⟨t, duty, retiring⟩ := retires gone
      exact ⟨t, lives.duty_after duty, retiring⟩

theorem Named.acts (h : Named w) {c : ClientRef} {client : Client} {task : SessionTask}
    {next : Option SessionTask} (acts : Acts w c client task next v) : Named v := by
  intro k named
  rw [acts.named] at named
  split at named
  · contradiction
  · next keeps =>
      obtain ⟨u, errand, -⟩ := acts.errand
      obtain ⟨d, g, found, name, came, retires⟩ := h k named
      obtain ⟨room, there⟩ := acts.guest?_of_some found
      refine ⟨d, _, there, name, came, fun gone => ?_⟩
      obtain ⟨t, duty, retiring⟩ := retires gone
      rcases acts.duty_after duty with kept | ⟨rfl, rfl⟩
      · exact ⟨t, kept, retiring⟩
      · obtain rfl := Option.some.inj ((guest?_of_client acts.found).symm.trans found)
        rcases errand.isRetiring retiring with rfl | ⟨t, rfl, retiring⟩
        · exact absurd ⟨rfl, name.symm⟩ keeps
        · exact ⟨t, acts.duty_next rfl, retiring⟩

theorem Named.stir (h : Named w) (punctual : Punctual w) {hook : Option (ClientRef × Hook)}
    (stir : Stir w v hook) : Named v := by
  cases stir with
  | steady same =>
      intro k named
      rw [same.named] at named
      obtain ⟨c, g, found, name, came, retires⟩ := h k named
      refine ⟨c, g, (same.guest? c).trans found, name, came, fun gone => ?_⟩
      rw [same.duties]
      exact retires gone
  | comes i comes =>
      intro k named
      rw [comes.named] at named
      obtain ⟨c, g, found, name, came, retires⟩ := h k named
      refine ⟨c, g, comes.guest?_of_some found, name, came, fun gone => ?_⟩
      rw [comes.duties]
      exact retires gone
  | lives c g hook lives => exact h.lives punctual lives
  | acts c client task next acts => exact h.acts acts

end World

end ChatHall.Server
