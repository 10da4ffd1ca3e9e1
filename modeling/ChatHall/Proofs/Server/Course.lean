/-
# Order along every course

What a single event keeps is kept by every course of events, whatever the order.
A course starts with halls that have been opened and in which nothing has been
made: no room, not even a default one, and no client.
-/

import ChatHall.Proofs.Server.Order
import ChatHall.Proofs.Server.Turn

namespace ChatHall.Server.World

variable {w v u : World} {past : List (RoomRef × RoomTask)}

/-- New halls with these default rooms, which are not there yet. -/
def opened (defaultRooms : List String) : World :=
  defaultRooms.foldl (fun w defaultRoom => (w.openHall defaultRoom).1) empty

/-! ## Inductions over events -/

/-- Whether every event of a course, with the world before it, is as it should be. -/
def along (p : World → Event → Bool) (w : World) : List Event → Bool
  | [] => true
  | e :: later => p w e && ((w.after? e).map fun v => along p v later).getD true

/-- What holds of a world and of all that has been performed, and is kept by each event that is
as it should be, holds after every course of such events. -/
theorem course_induction_along {P : List (RoomRef × RoomTask) → World → Prop}
    {p : World → Event → Bool} {events : List Event}
    (step : ∀ past w e v, e ∈ events → p w e = true → P past w → w.after? e = some v →
      P (past ++ (w.performs? e).toList) v)
    (start : P past w) (proper : along p w events = true) (course : w.afterAll? events = some v) :
    P (past ++ w.performed events) v := by
  induction events generalizing past w with
  | nil =>
      obtain rfl := Option.some.inj course
      rw [performed, List.append_nil]
      exact start
  | cons e later ih =>
      rw [afterAll?, List.foldlM_cons] at course
      obtain ⟨mid, after, rest⟩ := Option.bind_eq_some_iff.1 course
      rw [along, after, Bool.and_eq_true] at proper
      have next := step past w e mid List.mem_cons_self proper.1 start after
      have last := ih (fun past w e v mem => step past w e v (List.mem_cons_of_mem _ mem)) next
        proper.2 rest
      rw [performed, after, ← List.append_assoc]
      exact last

theorem along_true (w : World) (events : List Event) : along (fun _ _ => true) w events = true := by
  induction events generalizing w with
  | nil => rfl
  | cons e later ih =>
      rw [along, Bool.true_and]
      cases w.after? e with
      | none => rfl
      | some v => exact ih v

/-- What is kept by each event holds after every course. -/
theorem course_induction {P : List (RoomRef × RoomTask) → World → Prop} {events : List Event}
    (step : ∀ past w e v, e ∈ events → P past w → w.after? e = some v →
      P (past ++ (w.performs? e).toList) v)
    (start : P past w) (course : w.afterAll? events = some v) : P (past ++ w.performed events) v :=
  course_induction_along (fun past w e v mem _ => step past w e v mem) start
    (along_true w events) course

/-! ## Order -/

theorem furnished_empty : Furnished empty where
  serial _ _ found := nomatch found
  named _ _ found := nomatch found
  hallOfClient _ _ found := nomatch found
  queueOfClient _ _ found := nomatch found
  distinct _ _ _ _ found := nomatch found
  hallOfRoom _ _ found := nomatch found
  queueOfRoom _ _ found := nomatch found
  registered _ _ _ found := nomatch found

theorem orderly_empty : Orderly [] empty where
  placed _ _ found := nomatch found
  fits _ _ found := nomatch found
  fitted _ none_done := absurd none_done List.not_mem_nil
  pending _ _ found := nomatch found
  members _ _ found := nomatch found
  memberCount _ _ found := nomatch found
  occupied _ _ found := nomatch found

theorem moves_opened (defaultRooms : List String) : Moves empty [] (opened defaultRooms) := by
  have all (w : World) (moves : Moves empty [] w) : Moves empty []
      (defaultRooms.foldl (fun w defaultRoom => (w.openHall defaultRoom).1) w) := by
    induction defaultRooms generalizing w with
    | nil => exact moves
    | cons defaultRoom later ih => exact ih _ (moves.step (.openHall w defaultRoom))
  exact all empty (.refl empty)

theorem Orderly.moves {deeds : List Deed} (orderly : Orderly past w) (furnished : Furnished w)
    (moves : Moves w deeds v) : Orderly (past ++ ranIn deeds) v := by
  induction moves with
  | refl =>
      rw [ranIn, List.filterMap_nil, List.append_nil]
      exact orderly
  | step moves last ih =>
      rw [ranIn, List.filterMap_append, ← List.append_assoc]
      exact ih.move (furnished.moves moves) last

/-- Everything in order: the references are good, and the rooms are what their tasks left. -/
structure InOrder (past : List (RoomRef × RoomTask)) (w : World) : Prop where
  furnished : Furnished w
  orderly : Orderly past w

theorem InOrder.moves {deeds : List Deed} (h : InOrder past w) (moves : Moves w deeds v) :
    InOrder (past ++ ranIn deeds) v :=
  ⟨h.furnished.moves moves, h.orderly.moves h.furnished moves⟩

theorem inOrder_opened (defaultRooms : List String) : InOrder [] (opened defaultRooms) :=
  InOrder.moves ⟨furnished_empty, orderly_empty⟩ (moves_opened defaultRooms)

theorem InOrder.after (h : InOrder past w) {e : Event} (after : w.after? e = some v) :
    InOrder (past ++ (w.performs? e).toList) v := by
  obtain ⟨deeds, change⟩ := change_of_after? h.furnished after
  rw [← change.ran]
  exact h.moves change.moves

/-- Every course leaves everything in order. -/
theorem InOrder.course (h : InOrder past w) {events : List Event}
    (course : w.afterAll? events = some v) : InOrder (past ++ w.performed events) v :=
  course_induction (fun _ _ _ _ _ h after => h.after after) h course

theorem inOrder_of_opened {defaultRooms : List String} {events : List Event}
    (course : (opened defaultRooms).afterAll? events = some w) :
    InOrder ((opened defaultRooms).performed events) w :=
  (inOrder_opened defaultRooms).course course

/-! ## Histories -/

theorem Moves.history {deeds : List Deed} (moves : Moves w deeds v) (h : InOrder past w)
    (r : RoomRef) :
    World.history (past ++ ranIn deeds) v r =
      World.history past w r ++ tasksOf r (pushedIn deeds) := by
  induction moves with
  | refl => rw [ranIn, pushedIn, List.filterMap_nil, List.filterMap_nil, List.append_nil,
      tasksOf_nil, List.append_nil]
  | step moves last ih =>
      have mid := h.moves moves
      rw [ranIn, pushedIn, List.filterMap_append, List.filterMap_append, tasksOf_append,
        ← List.append_assoc, ← List.append_assoc, ← ranIn, ← pushedIn, ← ih]
      exact last.history mid.furnished mid.orderly r

/-- No event takes anything out of the history of a room or changes its order. -/
theorem InOrder.history_prefix (h : InOrder past w) {e : Event} (after : w.after? e = some v)
    (r : RoomRef) : history past w r <+: history (past ++ (w.performs? e).toList) v r := by
  obtain ⟨deeds, change⟩ := change_of_after? h.furnished after
  rw [← change.ran, change.moves.history h]
  exact List.prefix_append _ _

theorem InOrder.room_of_mem_history (h : InOrder past w) {r : RoomRef} {task : RoomTask}
    (mem : task ∈ history past w r) : ∃ room, w.room? r = some room := by
  rcases List.mem_append.1 mem with performed | queued
  · exact Option.isSome_iff_exists.1 (h.orderly.fitted _ (mem_tasksOf.1 performed)).room
  · cases found : w.room? r with
    | none =>
        rw [queued_of_none found] at queued
        contradiction
    | some room => exact ⟨room, rfl⟩

/-- Whoever asks for an entrance adds it to the history of the room that is handed back. -/
theorem InOrder.history_enterRoom (h : InOrder past w) {i : HallRef} {name : String} {c : ClientRef}
    (after : w.after? (.enterRoom i name c) = some v) :
    history past v (w.enterRoom i name c).2 =
      history past w (w.enterRoom i name c).2 ++ [.enter c] := by
  simp only [after?, Option.ite_none_right_eq_some, Bool.and_eq_true, decide_eq_true_eq,
    Option.some.injEq] at after
  obtain ⟨⟨hall, client⟩, rfl⟩ := after
  have moves := moves_enterRoom (register?_isSome_of_lt hall) (standing?_isSome_of_lt client) name
  have grown := moves.history h (w.enterRoom i name c).2
  have pushed : tasksOf (w.enterRoom i name c).2
      [((w.enterRoom i name c).2, .enter c)] = [.enter c] := by
    rw [tasksOf_cons, if_pos rfl]
    rfl
  have none_run : past ++ ranIn [.push (w.enterRoom i name c).2 (.enter c)] = past :=
    List.append_nil past
  rw [none_run] at grown
  exact grown.trans (congrArg _ pushed)

/-- What is performed in a room is the oldest of what is queued for it. -/
theorem InOrder.queued_of_performs? (h : InOrder past w) {e : Event} {r : RoomRef} {task : RoomTask}
    (performs : w.performs? e = some (r, task)) :
    ∃ room rest, w.room? r = some room ∧ w.queued r = task :: rest := by
  cases e with
  | work q i =>
      rw [performs?] at performs
      split at performs
      · next job phase =>
          obtain ⟨queue, found, alive⟩ := phase?_eq_some.1 phase
          cases job with
          | room s other =>
              obtain ⟨rfl, rfl⟩ := Prod.mk.inj (Option.some.inj performs)
              obtain ⟨rest, oldest, -⟩ := agenda?_run h.furnished.serial found alive id
              obtain ⟨room, hroom, queue⟩ := h.orderly.placed q _ oldest _ List.mem_cons_self
              refine ⟨room, tasksOf s rest, hroom, ?_⟩
              rw [queued_of_agenda hroom (queue ▸ oldest), tasksOf_cons, if_pos rfl]
          | _ => contradiction
      · contradiction
  | _ => contradiction

end ChatHall.Server.World
