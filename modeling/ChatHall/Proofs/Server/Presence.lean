/-
# Members that can be sent to

A client whose coming has been noted and whose going has not has an open connection, and
nobody is put into a room before having been welcomed. So a member of a room can be sent
to as long as its connection lasts.
-/

import ChatHall.Proofs.Server.Handout
import ChatHall.Proofs.Server.Punctual

namespace ChatHall.Server

namespace Guest

variable {g : Guest} {hook : Hook}

/-- A link is closed by whoever notes the end, and open from before the coming is noted. -/
structure Sound (g : Guest) : Prop where
  closed : g.link = .closed → g.departure ≠ .unnoticed
  noted : g.arrival ≠ .unnoticed → g.link = .none → g.departure ≠ .unnoticed

theorem Sound.isConnected (h : g.Sound) (noted : g.arrival ≠ .unnoticed)
    (stays : g.departure = .unnoticed) : g.isConnected = true := by
  rw [Guest.isConnected, Bool.and_eq_true]
  refine ⟨decide_eq_true noted, decide_eq_true ?_⟩
  cases hlink : g.link with
  | none => exact absurd stays (h.noted noted hlink)
  | connected => rfl
  | closed => exact absurd stays (h.closed hlink)

theorem Sound.after (h : g.Sound) (fits : g.fits hook = true)
    (begins : hook = .attach → g.link = .none → g.departure ≠ .unnoticed) :
    (g.after hook).Sound := by
  -- A step in noting the coming touches neither the link nor what is noted of the end.
  have coming {arrival : Arrival} (already : g.arrival ≠ .unnoticed) :
      ({ g with arrival } : Guest).Sound := ⟨h.closed, fun _ => h.noted already⟩
  cases hook with
  | start => exact ⟨Link.noConfusion, fun _ => Link.noConfusion⟩
  | attach => exact ⟨h.closed, fun _ => begins rfl⟩
  | register =>
      have arrival : g.arrival = .attached := of_decide_eq_true fits
      exact coming (by rw [arrival]; exact Arrival.noConfusion)
  | enlist =>
      have arrival : g.arrival = .registered := of_decide_eq_true fits
      exact coming (by rw [arrival]; exact Arrival.noConfusion)
  | greet =>
      have arrival : g.arrival = .enlisted := of_decide_eq_true fits
      exact coming (by rw [arrival]; exact Arrival.noConfusion)
  | receive p => exact h
  | close =>
      rw [Guest.after]
      split
      · exact ⟨fun _ => Departure.noConfusion, fun _ => Link.noConfusion⟩
      · exact h
  | delist => exact ⟨fun _ => Departure.noConfusion, fun _ _ => Departure.noConfusion⟩
  | seeOff => exact ⟨fun _ => Departure.noConfusion, fun _ _ => Departure.noConfusion⟩
  | release =>
      have departure : g.departure = .seenOff := of_decide_eq_true fits
      have leaves : g.departure ≠ .unnoticed := by
        rw [departure]
        exact Departure.noConfusion
      rw [Guest.after]
      split
      · exact ⟨fun _ => leaves, fun _ _ => leaves⟩
      · exact h

/-- Nobody comes back. -/
theorem leaves_after (leaves : g.departure ≠ .unnoticed) :
    (g.after hook).departure ≠ .unnoticed := by
  cases hook with
  | close =>
      rw [Guest.after]
      split
      · exact Departure.noConfusion
      · exact leaves
  | delist => exact Departure.noConfusion
  | seeOff => exact Departure.noConfusion
  | release =>
      rw [Guest.after]
      split <;> exact leaves
  | _ => exact leaves

end Guest

namespace World

variable {w v : World} {past : List (RoomRef × RoomTask)} {e : Event} {c : ClientRef} {g : Guest}

/-- A client stays what it is; its coming and its going are noted further and further. -/
theorem Stir.guest?_of_some {hook : Option (ClientRef × Hook)} (stir : Stir w v hook)
    (found : w.guest? c = some g) :
    ∃ g', v.guest? c = some g' ∧ g.arrival.steps ≤ g'.arrival.steps ∧
      (g.departure ≠ .unnoticed → g'.departure ≠ .unnoticed) := by
  cases stir with
  | steady same => exact ⟨g, (same.guest? c).trans found, Nat.le_refl _, id⟩
  | comes i comes => exact ⟨g, comes.guest?_of_some found, Nat.le_refl _, id⟩
  | lives d g' hook lives =>
      rw [lives.guest?]
      split
      · next own =>
          subst own
          obtain rfl := Option.some.inj (lives.found.symm.trans found)
          exact ⟨_, rfl, Guest.steps_le_after lives.fits, Guest.leaves_after⟩
      · exact ⟨g, found, Nat.le_refl _, id⟩
  | acts d client task next acts =>
      obtain ⟨room, there⟩ := acts.guest?_of_some found
      exact ⟨_, there, Nat.le_refl _, id⟩

/-- Whether a client has been asked into the default room. -/
def Greeted (w : World) (c : ClientRef) : Prop := ∃ g, w.guest? c = some g ∧ g.arrival = .greeted

theorem Greeted.stir (h : Greeted w c) {hook : Option (ClientRef × Hook)} (stir : Stir w v hook) :
    Greeted v c := by
  obtain ⟨g, found, greeted⟩ := h
  obtain ⟨g', after, steps, -⟩ := stir.guest?_of_some found
  rw [greeted] at steps
  exact ⟨g', after, Arrival.eq_greeted steps⟩

/-- Nobody is put into a room before having been welcomed, and every guest is sound. -/
structure Warm (past : List (RoomRef × RoomTask)) (w : World) : Prop where
  sound : ∀ c g, w.guest? c = some g → g.Sound
  calls : ∀ q c t, (c, t) ∈ w.duties q → t.mayEnter = true → w.Greeted c
  entrants : ∀ r c, .enter c ∈ history past w r → w.Greeted c

/-! ## Every event keeps the guests warm -/

/-- Nobody begins to be noted whose session has not started. -/
theorem begins_of_after? (step : w.hook? e = some (c, .attach)) (after : w.after? e = some v)
    (found : w.guest? c = some g) (unlinked : g.link = .none) : g.departure ≠ .unnoticed := by
  obtain rfl := eq_of_hook? step rfl
  obtain ⟨client, known, rfl⟩ := Option.map_eq_some_iff.1 found
  change w.arriveStep? c = some v at after
  simp only [arriveStep?, Option.bind_eq_bind, Option.bind_eq_some_iff,
    Option.ite_none_left_eq_some, Bool.and_eq_true, decide_eq_true_eq] at after
  obtain ⟨again, hagain, started, -⟩ := after
  obtain rfl := Option.some.inj (known.symm.trans hagain)
  exact fun unnoticed => started ⟨unlinked, unnoticed⟩

theorem sound_stir (h : ∀ c g, w.guest? c = some g → g.Sound) (stir : Stir w v (w.hook? e))
    (after : w.after? e = some v) : ∀ c g, v.guest? c = some g → g.Sound := by
  intro c g found
  cases stir.stems found with
  | new => exact ⟨Link.noConfusion, fun noted => absurd rfl noted⟩
  | kept g room before =>
      have sound := h c g before
      exact ⟨sound.closed, sound.noted⟩
  | stepped g hook before fits own =>
      refine (h c g before).after fits ?_
      rintro rfl
      exact begins_of_after? own after before

/-- Whoever is called to a job that may put it into a room has been welcomed. -/
theorem greeted_after_call {hook : Hook} (fits : g.fits hook = true) {t : SessionTask}
    (calls : t ∈ hook.call?) (enters : t.mayEnter = true) :
    (g.after hook).arrival = .greeted := by
  cases hook with
  | greet => rfl
  | receive p => exact of_decide_eq_true fits
  | seeOff =>
      obtain rfl := Option.some.inj calls
      contradiction
  | _ => contradiction

theorem calls_stir (h : ∀ q c t, (c, t) ∈ w.duties q → t.mayEnter = true → w.Greeted c)
    {hook : Option (ClientRef × Hook)} (stir : Stir w v hook) :
    ∀ q c t, (c, t) ∈ v.duties q → t.mayEnter = true → v.Greeted c := by
  intro q c t duty enters
  have stays (before : (c, t) ∈ w.duties q) : v.Greeted c := (h q c t before enters).stir stir
  cases stir with
  | steady same => exact stays (same.duties q ▸ duty)
  | comes i comes => exact stays (comes.duties q ▸ duty)
  | lives d g hook lives =>
      rcases lives.duty_before duty with before | ⟨rfl, calls⟩
      · exact stays before
      · exact ⟨_, (lives.guest? c).trans (if_pos rfl), greeted_after_call lives.fits calls enters⟩
  | acts d client task next acts =>
      by_cases own : c = d
      · subst own
        rw [acts.duties] at duty
        split at duty
        · rcases List.mem_append.1 duty with follows | waits
          · obtain ⟨t', ht', same⟩ := List.mem_map.1 follows
            obtain ⟨-, rfl⟩ := Prod.mk.inj same
            obtain ⟨u, errand, -⟩ := acts.errand
            have before : task.mayEnter = true := by
              by_contra stays
              rw [Bool.not_eq_true] at stays
              rw [errand.mayEnter stays t' (Option.mem_toList.1 ht')] at enters
              contradiction
            exact (h _ c task acts.job before).stir (.acts c client task next acts)
          · refine stays ?_
            rw [duties_eq]
            exact List.mem_append_right _ waits
        · exact stays duty
      · exact stays (acts.duty_before duty own)

/-- An entrance is asked for by a job that may put its client into a room. -/
theorem Turn.entrant {deeds : List Deed} (turn : Turn w deeds v) {r : RoomRef}
    (entered : .enter c ∈ tasksOf r (pushedIn deeds)) :
    ∃ q t, (c, t) ∈ w.performing q ∧ t.mayEnter = true := by
  cases turn with
  | still still => exact absurd entered (not_enter_of_noMoves still)
  | acted q d s task seat next none_run found busy act =>
      cases act with
      | rest _ _ _ still => exact absurd entered (not_enter_of_noMoves still)
      | leave =>
          rw [mem_tasksOf] at entered
          exact nomatch (Prod.mk.inj (List.mem_singleton.1 entered)).2
      | lose => contradiction
      | enter k name asked =>
          rw [mem_tasksOf] at entered
          obtain rfl := RoomTask.enter.inj (Prod.mk.inj (List.mem_singleton.1 entered)).2
          exact ⟨q, _, busy ▸ List.mem_cons_self, rfl⟩
      | arrive => contradiction
  | _ => contradiction

theorem Warm.after (h : Warm past w) (tended : Tended past w) (indirect : e.isDirect = false)
    (after : w.after? e = some v) : Warm (past ++ (w.performs? e).toList) v := by
  have stir := tended.stir after
  refine ⟨sound_stir h.sound stir after, calls_stir h.calls stir, fun r c entered => ?_⟩
  have inOrder := tended.agreed.inOrder
  obtain ⟨deeds, change⟩ := change_of_after? inOrder.furnished after
  rw [← change.ran, change.moves.history inOrder] at entered
  rcases List.mem_append.1 entered with old | new
  · exact (h.entrants r c old).stir stir
  · obtain ⟨q, t, performed, enters⟩ := (change.turn indirect).entrant new
    have duty : (c, t) ∈ w.duties q := by
      rw [duties_eq]
      exact List.mem_append_left _ performed
    exact (h.calls q c t duty enters).stir stir

theorem warm_opened (defaultRooms : List String) : Warm [] (opened defaultRooms) where
  sound c g found := by
    rw [guest?_opened] at found
    contradiction
  calls q c t duty := by
    rw [(steady_opened defaultRooms).duties] at duty
    contradiction
  entrants r c entered := by
    obtain ⟨s, known, -⟩ := (agreed_opened defaultRooms).seats.choose_spec.1.entrant r c entered
    obtain ⟨client, found, -⟩ := Option.map_eq_some_iff.1 known
    have guest := guest?_opened defaultRooms c
    rw [guest?, found] at guest
    contradiction

/-- A member whose end has not been noted can be sent to. -/
theorem Warm.reaches (h : Warm past w) (inOrder : InOrder past w) {r : RoomRef}
    (inside : c ∈ (w.membersOf r).values)
    (stays : ∀ g, w.guest? c = some g → g.departure = .unnoticed) : w.reaches c = true := by
  obtain ⟨playerId, member⟩ := Table.mem_values_iff.1 inside
  have entered := enter_mem_of_find? (inOrder.membersOf_eq r ▸ member)
  obtain ⟨g, found, greeted⟩ := h.entrants r c (List.mem_append_left _ entered)
  have noted : g.arrival ≠ .unnoticed := by
    rw [greeted]
    exact Arrival.noConfusion
  rw [World.reaches, found]
  exact (h.sound c g found).isConnected noted (stays g found)

end World

end ChatHall.Server
