/-
# What the members of a room hear

A room performs its tasks in the order in which they were pushed, and hands what each of
them has to say to the members that the task leaves. So whoever stays connected hears
exactly what the room hands out from its entrance to its departure, in the order of the
room, and any two members hear what both of them hear in the same order. Behind that
order stands the one in which the packets of each client have arrived, and the numbers
that the updates carry are those of the members.
-/

import ChatHall.Proofs.Server.Presence
import ChatHall.Proofs.Server.Speech
import Mathlib.Algebra.Ring.Int.Defs
import Mathlib.Data.List.Basic

namespace ChatHall.Server

/-- A task that a room has performed, what it has handed out, and the members it has left. -/
structure Cast where
  task : RoomTask
  frame? : Option Outgoing
  members : List ClientRef
  deriving Repr, DecidableEq

def tasksIn (casts : List Cast) : List RoomTask := casts.map Cast.task

/-- The casts, by their numbers, from each entrance of a client, included, to the departure that
follows it, excluded. -/
def heard (c : ClientRef) (playerId : Nat) (casts : List Cast) : List (Cast × Nat) :=
  casts.zipIdx.filter fun e =>
    lastMove? c playerId (tasksIn (casts.take (e.2 + 1))) = some (.enter c)

/-- The number of members that one arrives at by counting along with the updates. -/
def replayed (casts : List Cast) : Int := ((casts.filterMap Cast.frame?).map Outgoing.change).sum

def RoomTask.isSayOf (playerId : Nat) : RoomTask → Bool
  | say other _ => other = playerId
  | _ => false

section Casts

/-- What both of two clients hear they hear in the same order. -/
theorem filter_mem_heard (c d : ClientRef) (i j : Nat) (casts : List Cast) :
    (heard c i casts).filter (· ∈ heard d j casts) =
      (heard d j casts).filter (· ∈ heard c i casts) := by
  rw [heard, heard, List.filter_filter, List.filter_filter]
  refine List.filter_congr fun e listed => ?_
  simp only [List.mem_filter, listed, true_and, Bool.decide_eq_true]
  exact Bool.and_comm _ _

theorem heard_concat (c : ClientRef) (i : Nat) (casts : List Cast) (cast : Cast) :
    heard c i (casts ++ [cast]) = heard c i casts ++
      if lastMove? c i (tasksIn (casts ++ [cast])) = some (.enter c) then [(cast, casts.length)]
      else [] := by
  have earlier : casts.zipIdx.filter (fun e =>
      lastMove? c i (tasksIn ((casts ++ [cast]).take (e.2 + 1))) = some (.enter c)) =
        heard c i casts := by
    refine List.filter_congr fun e listed => ?_
    have below : e.2 + 1 ≤ casts.length := by
      have := List.snd_lt_of_mem_zipIdx listed
      omega
    rw [List.take_append_of_le_length below]
  rw [heard, List.zipIdx_append, List.filter_append, earlier]
  congr 1
  have all : (casts ++ [cast]).take (casts.length + 1) = casts ++ [cast] :=
    List.take_of_length_le (by simp)
  rw [List.zipIdx_singleton, Nat.zero_add, List.filter_cons, List.filter_nil, all]
  split <;> simp_all

theorem replayed_concat (casts : List Cast) (cast : Cast) :
    replayed (casts ++ [cast]) = replayed casts + (cast.frame?.map Outgoing.change).getD 0 := by
  rw [replayed, replayed, List.filterMap_append, List.map_append, List.sum_append]
  congr 1
  cases h : cast.frame? <;> simp [h]

end Casts

section Sayings

variable {playerId : Nat} {r : RoomRef}

theorem filter_isSayOf_filter_isSay (playerId : Nat) (tasks : List RoomTask) :
    (tasks.filter RoomTask.isSay).filter (RoomTask.isSayOf playerId) =
      tasks.filter (RoomTask.isSayOf playerId) := by
  rw [List.filter_filter]
  refine List.filter_congr fun task _ => ?_
  cases task with
  | say => exact Bool.and_true _
  | _ => rfl

theorem Taking.filter_speech? (t : Taking) (r : RoomRef) (playerId : Nat) :
    (t.speech? r).filter (RoomTask.isSayOf playerId) =
      if t.playerId = playerId then t.speech? r else none := by
  cases speech : t.speech? r with
  | none => exact (ite_self _).symm
  | some task =>
      rw [Taking.speech?, Option.ite_none_right_eq_some, Option.map_eq_some_iff] at speech
      obtain ⟨-, message, -, rfl⟩ := speech
      simp [Option.filter, RoomTask.isSayOf]

/-- What is said for a player is what the packets of a client say, if those taken up in the room
are the client's exactly if they are the player's. -/
theorem filter_isSayOf_filterMap_speech? {c : ClientRef} {taken : List Taking}
    (own : ∀ t ∈ taken, t.seat = some r → (t.client = c ↔ t.playerId = playerId)) :
    (taken.filterMap (·.speech? r)).filter (RoomTask.isSayOf playerId) =
      (taken.filter (·.client = c)).filterMap (·.speech? r) := by
  rw [List.filter_filterMap, List.filterMap_filter]
  refine List.filterMap_congr fun t mem => ?_
  by_cases here : t.seat = some r
  · simp only [t.filter_speech?, own t mem here, decide_eq_true_eq]
  · simp [Taking.speech?, here]

end Sayings

namespace World

variable {w v u start : World} {past : List (RoomRef × RoomTask)} {r : RoomRef} {e : Event}
variable {events first later : List Event}

/-! ## Courses, from the end -/

theorem afterAll?_append :
    w.afterAll? (first ++ later) = (w.afterAll? first).bind fun v => v.afterAll? later := by
  rw [afterAll?, List.foldlM_append]
  rfl

theorem afterAll?_concat_eq_some :
    w.afterAll? (events ++ [e]) = some v ↔
      ∃ u, w.afterAll? events = some u ∧ u.after? e = some v := by
  rw [afterAll?_append, Option.bind_eq_some_iff]
  refine exists_congr fun u => and_congr_right fun _ => ?_
  rw [afterAll?, List.foldlM_cons]
  cases u.after? e <;> rfl

/-- What is noted of every event of a course, from the worlds before and after it. -/
def gather {α : Type} (note : World → Event → World → List α) (w : World) : List Event → List α
  | [] => []
  | e :: later => ((w.after? e).map fun v => note w e v ++ gather note v later).getD []

theorem gather_concat {α : Type} {note : World → Event → World → List α}
    (course : w.afterAll? events = some u) (after : u.after? e = some v) :
    gather note w (events ++ [e]) = gather note w events ++ note u e v := by
  induction events generalizing w with
  | nil =>
      obtain rfl := Option.some.inj course
      change ((w.after? e).map fun v => note w e v ++ []).getD [] = note w e v
      rw [after]
      exact List.append_nil _
  | cons d later ih =>
      rw [afterAll?, List.foldlM_cons] at course
      obtain ⟨mid, next, rest⟩ := Option.bind_eq_some_iff.1 course
      rw [List.cons_append, gather, next, gather, next]
      dsimp only [Option.map_some, Option.getD_some]
      rw [ih rest, List.append_assoc]

theorem performed_concat (course : w.afterAll? events = some u) :
    w.performed (events ++ [e]) = w.performed events ++ (u.performs? e).toList := by
  induction events generalizing w with
  | nil =>
      obtain rfl := Option.some.inj course
      change (w.performs? e).toList ++ _ = (w.performs? e).toList
      cases w.after? e <;> exact List.append_nil _
  | cons d later ih =>
      rw [afterAll?, List.foldlM_cons] at course
      obtain ⟨mid, next, rest⟩ := Option.bind_eq_some_iff.1 course
      rw [List.cons_append, performed, next, performed, next]
      dsimp only [Option.map_some, Option.getD_some]
      rw [ih rest, List.append_assoc]

/-- What holds at the beginning and is kept by each event that follows on a course holds along every
course. -/
theorem course_induction_concat (start : World) {P : List Event → World → Prop}
    (step : ∀ events e u v, (∀ e ∈ events, e.isDirect = false) → e.isDirect = false →
      start.afterAll? events = some u → u.after? e = some v → P events u → P (events ++ [e]) v)
    (begins : P [] start) (indirect : ∀ e ∈ events, e.isDirect = false)
    (course : start.afterAll? events = some w) : P events w := by
  induction events using List.reverseRecOn generalizing w with
  | nil =>
      obtain rfl := Option.some.inj course
      exact begins
  | append_singleton events e ih =>
      obtain ⟨u, before, after⟩ := afterAll?_concat_eq_some.1 course
      have earlier : ∀ e ∈ events, e.isDirect = false := fun e mem =>
        indirect e (List.mem_append_left _ mem)
      exact step events e u w earlier (indirect e (List.mem_append_right _ List.mem_cons_self))
        before after (ih earlier before)

/-! ## What is noted along a course -/

/-- What a room casts with an event. -/
def cast? (r : RoomRef) (w : World) (e : Event) (v : World) : Option Cast :=
  match w.performs? e with
  | some (s, task) =>
    if s = r then some { task, frame? := w.handout? r task, members := (v.membersOf r).values }
    else none
  | none => none

/-- What a room casts along a course. -/
def casts (r : RoomRef) (w : World) (events : List Event) : List Cast :=
  gather (fun w e v => (cast? r w e v).toList) w events

/-- What the tasks of a room hand to a client along a course. -/
def handed (r : RoomRef) (c : ClientRef) (w : World) (events : List Event) : List Outgoing :=
  gather (fun w e v => if (cast? r w e v).isSome then (v.sent c).drop (w.sent c).length else [])
    w events

/-- The packets that are taken up along a course. -/
def takings (w : World) (events : List Event) : List Taking :=
  gather (fun w e _ => (w.takes? e).toList) w events

theorem cast?_eq_some {cast : Cast} (made : cast? r w e v = some cast) :
    ∃ task, w.performs? e = some (r, task) ∧
      cast = { task, frame? := w.handout? r task, members := (v.membersOf r).values } := by
  rw [cast?] at made
  split at made
  · next s task performs =>
      rw [Option.ite_none_right_eq_some] at made
      obtain ⟨rfl, made⟩ := made
      exact ⟨task, performs, (Option.some.inj made).symm⟩
  · contradiction

section Cast

variable {cast : Cast} {c : ClientRef} (made : cast? r w e v = some cast)
include made

theorem length_of_cast? : cast.members.length = (v.membersOf r).size := by
  obtain ⟨task, -, rfl⟩ := cast?_eq_some made
  exact List.length_map _

theorem InOrder.nodup_of_cast? (h : InOrder past v) : cast.members.Nodup := by
  obtain ⟨task, -, rfl⟩ := cast?_eq_some made
  exact h.nodup_members r

/-- What is cast is handed to each of the members, once, if that can be sent to. -/
theorem InOrder.sent_of_cast? (h : InOrder past v) (after : w.after? e = some v) (c : ClientRef) :
    v.sent c = w.sent c ++
      if c ∈ cast.members ∧ v.reaches c = true then cast.frame?.toList else [] := by
  obtain ⟨task, performs, rfl⟩ := cast?_eq_some made
  exact sent_of_performs? h performs after c

theorem InOrder.memberCount_of_cast? (h : InOrder past w) (after : w.after? e = some v)
    {update : Chat.RoomUpdate} (told : cast.frame? = some (.update update)) :
    update.memberCount = UInt64.ofNat cast.members.length := by
  rw [length_of_cast? made]
  obtain ⟨task, performs, rfl⟩ := cast?_eq_some made
  exact h.memberCount_of_performs? performs after told

theorem InOrder.frame?_of_cast? (h : InOrder past w) {playerId : Nat} {message : String}
    (said : cast.task = .say playerId message) : cast.frame? = some (.broadcast {
      playerId := UInt64.ofNat playerId
      message
      timestamp := w.state.clock }) := by
  obtain ⟨task, performs, rfl⟩ := cast?_eq_some made
  obtain rfl : task = .say playerId message := said
  exact h.handout?_say performs

theorem Agreed.mem_members_of_cast? (h : Agreed past v) {playerId : Nat}
    (known : ∀ s, v.standing? c = some s → s.sessionId = playerId) :
    c ∈ cast.members ↔ lastMove? c playerId (tasksOf r past) = some (.enter c) := by
  obtain ⟨task, -, rfl⟩ := cast?_eq_some made
  exact h.mem_members_iff known r

theorem Warm.reaches_of_cast? (h : Warm past v) (inOrder : InOrder past v)
    (member : c ∈ cast.members)
    (stays : ∀ g, v.guest? c = some g → g.departure = .unnoticed) : v.reaches c = true := by
  obtain ⟨task, -, rfl⟩ := cast?_eq_some made
  exact h.reaches inOrder member stays

end Cast

theorem tasksIn_cast? (r : RoomRef) (w : World) (e : Event) (v : World) :
    tasksIn (cast? r w e v).toList = tasksOf r (w.performs? e).toList := by
  rw [cast?]
  split
  · next s task performs =>
      rw [performs, Option.toList_some, tasksOf_cons]
      split <;> rfl
  · next performs =>
      rw [performs]
      rfl

theorem tasksOf_of_cast?_eq_none (nothing : cast? r w e v = none) :
    tasksOf r (w.performs? e).toList = [] := by
  rw [← tasksIn_cast? r w e v, nothing]
  rfl

section Course

variable {defaultRooms : List String}

theorem tended_of_opened (indirect : ∀ e ∈ events, e.isDirect = false)
    (course : (opened defaultRooms).afterAll? events = some w) :
    Tended ((opened defaultRooms).performed events) w ∧
      Warm ((opened defaultRooms).performed events) w :=
  course_induction (P := fun past w => Tended past w ∧ Warm past w)
    (fun _ _ e _ mem h after =>
      ⟨h.1.after (indirect e mem) after, h.2.after h.1 (indirect e mem) after⟩)
    ⟨tended_opened defaultRooms, warm_opened defaultRooms⟩ course

theorem casts_concat (course : start.afterAll? events = some u) (after : u.after? e = some v) :
    casts r start (events ++ [e]) = casts r start events ++ (cast? r u e v).toList :=
  gather_concat course after

theorem handed_concat {c : ClientRef} (course : start.afterAll? events = some u)
    (after : u.after? e = some v) :
    handed r c start (events ++ [e]) = handed r c start events ++
      if (cast? r u e v).isSome then (v.sent c).drop (u.sent c).length else [] :=
  gather_concat course after

theorem takings_concat (course : start.afterAll? events = some u) (after : u.after? e = some v) :
    takings start (events ++ [e]) = takings start events ++ (u.takes? e).toList :=
  gather_concat course after

/-- What a room has cast is what it has performed. -/
theorem tasksIn_casts (indirect : ∀ e ∈ events, e.isDirect = false)
    (course : start.afterAll? events = some w) :
    tasksIn (casts r start events) = tasksOf r (start.performed events) := by
  refine course_induction_concat start (P := fun events _ =>
    tasksIn (casts r start events) = tasksOf r (start.performed events)) ?_ rfl indirect course
  intro events e u v _ _ course after ih
  rw [casts_concat course after, performed_concat course, tasksOf_append, ← ih, ← tasksIn_cast?]
  exact List.map_append

/-- The history of a room only grows along a course. -/
theorem InOrder.isPrefix_history_course (h : InOrder past u) (course : u.afterAll? later = some w)
    (r : RoomRef) : history past u r <+: history (past ++ u.performed later) w r := by
  have kept := course_induction (P := fun past' v =>
    InOrder past' v ∧ history past u r <+: history past' v r)
    (fun _ _ _ _ _ kept after =>
      ⟨kept.1.after after, kept.2.trans (InOrder.history_prefix kept.1 after r)⟩)
    ⟨h, List.prefix_rfl⟩ course
  exact kept.2

theorem performed_append (course : start.afterAll? first = some u) :
    start.performed (first ++ later) = start.performed first ++ u.performed later := by
  induction first generalizing start with
  | nil =>
      obtain rfl := Option.some.inj course
      rfl
  | cons d rest ih =>
      rw [afterAll?, List.foldlM_cons] at course
      obtain ⟨mid, next, course⟩ := Option.bind_eq_some_iff.1 course
      rw [List.cons_append, performed, next, performed, next]
      dsimp only [Option.map_some, Option.getD_some]
      rw [ih course, List.append_assoc]

/-- Every cast was made by an event of the course, when the casts before it had been made. -/
theorem exists_of_cast (course : start.afterAll? events = some w) {k : Nat} {cast : Cast}
    (listed : (casts r start events)[k]? = some cast) :
    ∃ first e later u v, events = first ++ e :: later ∧ start.afterAll? first = some u ∧
      u.after? e = some v ∧ v.afterAll? later = some w ∧ cast? r u e v = some cast ∧
      casts r start (first ++ [e]) = (casts r start events).take (k + 1) := by
  induction events using List.reverseRecOn generalizing w with
  | nil => contradiction
  | append_singleton events e ih =>
      obtain ⟨u, before, after⟩ := afterAll?_concat_eq_some.1 course
      rw [casts_concat before after] at listed ⊢
      rcases Nat.lt_or_ge k (casts r start events).length with below | beyond
      · rw [List.getElem?_append_left below] at listed
        rw [List.take_append_of_le_length below]
        obtain ⟨first, d, later, x, y, rfl, toX, toY, rest, made, taken⟩ := ih before listed
        refine ⟨first, d, later ++ [e], x, y, ?_, toX, toY, ?_, made, taken⟩
        · rw [List.append_assoc, List.cons_append]
        · exact afterAll?_concat_eq_some.2 ⟨u, rest, after⟩
      · rw [List.getElem?_append_right beyond] at listed
        have made : cast? r u e w = some cast := by
          cases made : cast? r u e w with
          | none =>
              rw [made] at listed
              contradiction
          | some last =>
              rw [made, Option.toList_some] at listed
              rw [List.mem_singleton.1 (List.mem_of_getElem? listed)]
        refine ⟨events, e, [], u, w, rfl, before, after, rfl, made, ?_⟩
        rw [casts_concat before after, made, Option.toList_some, List.take_of_length_le]
        rw [List.length_append, List.length_singleton]
        exact Nat.succ_le_succ beyond

/-- A client stays what it is. -/
theorem InOrder.standing_of_course (h : InOrder past v) (course : v.afterAll? later = some w)
    {c : ClientRef} {s : Standing} (known : v.standing? c = some s) : w.standing? c = some s := by
  have kept := course_induction (P := fun past w => InOrder past w ∧ w.standing? c = some s)
    (fun _ _ _ _ _ kept after => by
      obtain ⟨deeds, change⟩ := change_of_after? kept.1.furnished after
      exact ⟨kept.1.after after, change.moves.extends.standing c s kept.2⟩)
    ⟨h, known⟩ course
  exact kept.2

/-! ## The members -/

section Cast

variable {k : Nat} {cast : Cast} (indirect : ∀ e ∈ events, e.isDirect = false)
variable (course : (opened defaultRooms).afterAll? events = some w)
include indirect course

theorem size_of_course :
    ((w.membersOf r).size : Int) = replayed (casts r (opened defaultRooms) events) := by
  refine course_induction_concat (opened defaultRooms) (P := fun events w =>
    ((w.membersOf r).size : Int) = replayed (casts r (opened defaultRooms) events)) ?_ ?_ indirect
      course
  · intro events e u v indirect next course after ih
    have agreed := (tended_of_opened indirect course).1.agreed
    rw [casts_concat course after]
    cases made : cast? r u e v with
    | none =>
        have idle := tasksOf_of_cast?_eq_none made
        rw [agreed.inOrder.membersOf_of_idle after idle, ih, Option.toList_none, List.append_nil]
    | some cast =>
        obtain ⟨task, performs, rfl⟩ := cast?_eq_some made
        rw [agreed.size_of_performs? performs after, ih, Option.toList_some, replayed_concat]
  · rw [(inOrder_opened defaultRooms).membersOf_eq]
    rfl

/-- What is known of a cast: who its members are, how many they are, and what it hands out. -/
theorem cast_of_course (listed : (casts r (opened defaultRooms) events)[k]? = some cast) :
    cast.members.Nodup ∧
      (∀ c client, w.client? c = some client → (c ∈ cast.members ↔ lastMove? c client.sessionId
        (tasksIn ((casts r (opened defaultRooms) events).take (k + 1))) = some (.enter c))) ∧
      (∀ update, cast.frame? = some (.update update) →
        update.memberCount = UInt64.ofNat cast.members.length) ∧
      (cast.members.length : Int) =
        replayed ((casts r (opened defaultRooms) events).take (k + 1)) ∧
      ∀ playerId message, cast.task = .say playerId message → ∃ timestamp, cast.frame? =
        some (.broadcast { playerId := UInt64.ofNat playerId, message, timestamp }) := by
  obtain ⟨first, e, later, u, v, rfl, toU, toV, rest, made, taken⟩ := exists_of_cast course listed
  have toFirst : ∀ d ∈ first, d.isDirect = false := fun d mem =>
    indirect d (List.mem_append_left _ mem)
  have toNext : ∀ d ∈ first ++ [e], d.isDirect = false := by
    intro d mem
    rcases List.mem_append.1 mem with old | new
    · exact toFirst d old
    · exact indirect d (List.mem_append_right _ (List.mem_singleton.1 new ▸ List.mem_cons_self))
  have until_v : (opened defaultRooms).afterAll? (first ++ [e]) = some v :=
    afterAll?_concat_eq_some.2 ⟨u, toU, toV⟩
  have before := (tended_of_opened toFirst toU).1.agreed
  have agreed := (tended_of_opened toNext until_v).1.agreed
  have tasks := tasksIn_casts (r := r) toNext until_v
  have size := size_of_course (r := r) toNext until_v
  rw [taken] at tasks size
  refine ⟨agreed.inOrder.nodup_of_cast? made, fun c client found => ?_,
    fun update => before.inOrder.memberCount_of_cast? made toV, ?_,
    fun playerId message said => ⟨_, before.inOrder.frame?_of_cast? made said⟩⟩
  · rw [tasks]
    refine agreed.mem_members_of_cast? made fun s standing => ?_
    have same := agreed.inOrder.standing_of_course rest standing
    obtain rfl := Option.some.inj ((standing?_of_client found).symm.trans same)
    rfl
  · rw [length_of_cast? made, size]

end Cast

/-! ## What a member hears -/

/-- Whoever is not on the way out has been handed what was cast while it was inside. -/
theorem handed_of_course (indirect : ∀ e ∈ events, e.isDirect = false)
    (course : (opened defaultRooms).afterAll? events = some w) {c : ClientRef} {playerId : Nat}
    (stays : ∀ g, w.guest? c = some g → g.departure = .unnoticed)
    (known : ∀ s, w.standing? c = some s → s.sessionId = playerId) :
    handed r c (opened defaultRooms) events =
      (heard c playerId (casts r (opened defaultRooms) events)).filterMap (·.1.frame?) := by
  let P (events : List Event) (w : World) : Prop :=
    (∀ g, w.guest? c = some g → g.departure = .unnoticed) →
    (∀ s, w.standing? c = some s → s.sessionId = playerId) →
    handed r c (opened defaultRooms) events =
      (heard c playerId (casts r (opened defaultRooms) events)).filterMap (·.1.frame?)
  refine course_induction_concat (opened defaultRooms) (P := P) ?_ (fun _ _ => rfl) indirect course
    stays known
  intro events e u v indirect next course after ih stays known
  obtain ⟨tended, warm⟩ := tended_of_opened indirect course
  have inOrder := tended.agreed.inOrder
  have later := tended.after next after
  have warmer := warm.after tended next after
  -- Nobody comes back, so whoever stays has stayed before, and is who it was.
  have before : handed r c (opened defaultRooms) events =
      (heard c playerId (casts r (opened defaultRooms) events)).filterMap (·.1.frame?) := by
    refine ih (fun g found => ?_) fun s standing => ?_
    · obtain ⟨g', there, -, leaves⟩ := (tended.stir after).guest?_of_some found
      by_contra gone
      exact leaves gone (stays g' there)
    · obtain ⟨deeds, change⟩ := change_of_after? inOrder.furnished after
      exact known s (change.moves.extends.standing c s standing)
  rw [handed_concat course after, before, casts_concat course after]
  cases made : cast? r u e v with
  | none => simp
  | some cast =>
      have tasks : tasksIn (casts r (opened defaultRooms) events ++ [cast]) =
          tasksOf r ((opened defaultRooms).performed events ++ (u.performs? e).toList) := by
        have last := tasksIn_cast? r u e v
        rw [made, Option.toList_some] at last
        rw [tasksOf_append, ← tasksIn_casts indirect course, ← last]
        exact List.map_append
      have inside := later.agreed.mem_members_of_cast? made known
      rw [← tasks] at inside
      rw [Option.toList_some, heard_concat, List.filterMap_append, Option.isSome_some, if_pos rfl,
        later.agreed.inOrder.sent_of_cast? made after, List.drop_left]
      congr 1
      by_cases member : c ∈ cast.members
      · rw [if_pos ⟨member, warmer.reaches_of_cast? made later.agreed.inOrder member stays⟩,
          if_pos (inside.1 member)]
        cases frame : cast.frame? <;> simp [frame]
      · rw [if_neg fun both => member both.1, if_neg fun heard => member (inside.2 heard)]
        rfl

/-! ## What a client says -/

/-- The packets of a client are taken up in the order in which they arrived. -/
theorem arrivals_of_course (indirect : ∀ e ∈ events, e.isDirect = false)
    (course : (opened defaultRooms).afterAll? events = some w) (c : ClientRef) :
    ((takings (opened defaultRooms) events).filter (·.client = c)).map Taking.packet ++
      w.pending c = events.filterMap (Event.arrival? c) := by
  refine course_induction_concat (opened defaultRooms) (P := fun events w =>
    ((takings (opened defaultRooms) events).filter (·.client = c)).map Taking.packet ++
      w.pending c = events.filterMap (Event.arrival? c)) ?_ ?_ indirect course
  · intro events e u v indirect next course after ih
    have moved := (tended_of_opened indirect course).1.pending after c
    have taken (t? : Option Taking) : (t?.toList.filter (·.client = c)).map Taking.packet =
        ((t?.filter (·.client = c)).map Taking.packet).toList := by
      cases t? with
      | none => rfl
      | some t => by_cases own : t.client = c <;> simp [Option.filter, own]
    have arrived : [e].filterMap (Event.arrival? c) = (e.arrival? c).toList := by
      cases h : e.arrival? c <;> simp [h]
    rw [takings_concat course after, List.filter_append, List.map_append, List.append_assoc, taken,
      moved, ← List.append_assoc, ih, List.filterMap_append, arrived]
  · have nobody : (opened defaultRooms).standing? c = none := by
      rw [standing?_eq_guest?, guest?_opened]
      rfl
    rw [pending, nobody]
    rfl

/-- A room is asked to say what the packets say that are taken up by clients that sit in it. -/
theorem speech_of_course (indirect : ∀ e ∈ events, e.isDirect = false)
    (course : (opened defaultRooms).afterAll? events = some w) :
    (history ((opened defaultRooms).performed events) w r).filter RoomTask.isSay =
      (takings (opened defaultRooms) events).filterMap (·.speech? r) := by
  refine course_induction_concat (opened defaultRooms) (P := fun events w =>
    (history ((opened defaultRooms).performed events) w r).filter RoomTask.isSay =
      (takings (opened defaultRooms) events).filterMap (·.speech? r)) ?_ ?_ indirect course
  · intro events e u v indirect next course after ih
    have tended := (tended_of_opened indirect course).1
    have speech (t? : Option Taking) :
        t?.toList.filterMap (·.speech? r) = (t?.bind (·.speech? r)).toList := by
      cases t? with
      | none => rfl
      | some t => cases h : t.speech? r <;> simp [h]
    rw [performed_concat course, tended.speech next after r, ih, takings_concat course after,
      List.filterMap_append, speech]
  · have grown := (moves_opened defaultRooms).history ⟨furnished_empty, orderly_empty⟩ r
    change (history ([] ++ ranIn []) (opened defaultRooms) r).filter _ = []
    rw [grown]
    rfl

/-- Whoever has taken a packet up in a room is a client of its hall. -/
theorem sits_of_course (indirect : ∀ e ∈ events, e.isDirect = false)
    (course : (opened defaultRooms).afterAll? events = some w) :
    ∀ t ∈ takings (opened defaultRooms) events, t.seat = some r → w.Sits t r := by
  refine course_induction_concat (opened defaultRooms) (P := fun events w =>
    ∀ t ∈ takings (opened defaultRooms) events, t.seat = some r → w.Sits t r) ?_ ?_ indirect course
  · intro events e u v indirect next course after ih t mem here
    have tended := (tended_of_opened indirect course).1
    obtain ⟨deeds, change⟩ := change_of_after? tended.agreed.inOrder.furnished after
    rw [takings_concat course after] at mem
    rcases List.mem_append.1 mem with old | new
    · exact (ih t old here).extends change.moves.extends
    · exact (tended.sits (Option.mem_toList.1 new) here).extends change.moves.extends
  · exact fun _ mem => absurd mem List.not_mem_nil

/-- A room is asked to say for a client what its packets say that are taken up while it sits
there. -/
theorem chats_of_course (indirect : ∀ e ∈ events, e.isDirect = false)
    (course : (opened defaultRooms).afterAll? events = some w) {c : ClientRef} {client : Client}
    {room : Room} (found : w.client? c = some client) (there : w.room? r = some room)
    (hall : room.hall = client.hall) :
    (history ((opened defaultRooms).performed events) w r).filter
        (RoomTask.isSayOf client.sessionId) =
      ((takings (opened defaultRooms) events).filter (·.client = c)).filterMap (·.speech? r) := by
  have distinct := (tended_of_opened indirect course).1.agreed.inOrder.furnished.distinct
  rw [← filter_isSayOf_filter_isSay, speech_of_course indirect course]
  refine filter_isSayOf_filterMap_speech? fun t mem here => ?_
  obtain ⟨s, other, standing, own, again, hallOfRoom⟩ := sits_of_course indirect course t mem here
  obtain rfl := Option.some.inj (there.symm.trans again)
  constructor
  · rintro rfl
    obtain rfl := Option.some.inj ((standing?_of_client found).symm.trans standing)
    exact own.symm
  · intro sessionId
    exact distinct _ _ s _ standing (standing?_of_client found) (hallOfRoom.symm.trans hall)
      (own.trans sessionId)

end Course

/-! ## Broadcasts -/

/-- What a room hands out along a course, to whom, and in which order. -/
structure Broadcasts (start : World) (events : List Event) (w : World) (r : RoomRef) : Prop where
  /-- Whatever has been asked of the room up to some time, what it has performed, and what waits
  after that, begins with it in the same order. -/
  order : ∀ (first later : List Event) (u : World), events = first ++ later →
    start.afterAll? first = some u →
    history (start.performed first) u r <+: tasksIn (casts r start events) ++ w.queued r
  /-- The members after a task are the clients that have entered and not left since. -/
  members : ∀ (k : Nat) (cast : Cast), (casts r start events)[k]? = some cast → cast.members.Nodup ∧
    ∀ c client, w.client? c = some client → (c ∈ cast.members ↔ lastMove? c client.sessionId
      (tasksIn ((casts r start events).take (k + 1))) = some (.enter c))
  /-- A client that has stayed connected has been handed what the room has handed out from each of
  its entrances to the departure that follows it, each frame once and in this order. -/
  delivered : ∀ c client, w.client? c = some client → client.isConnected = true →
    handed r c start events =
      (heard c client.sessionId (casts r start events)).filterMap (·.1.frame?)
  /-- What both of two clients hear they hear in the same order. -/
  common : ∀ c d client other, w.client? c = some client → w.client? d = some other →
    (heard c client.sessionId (casts r start events)).filter
        (· ∈ heard d other.sessionId (casts r start events)) =
      (heard d other.sessionId (casts r start events)).filter
        (· ∈ heard c client.sessionId (casts r start events))
  /-- An update tells the number of members after its task. -/
  counted : ∀ (k : Nat) (cast : Cast) (update : Chat.RoomUpdate),
    (casts r start events)[k]? = some cast →
    cast.frame? = some (.update update) →
    update.memberCount = UInt64.ofNat cast.members.length
  /-- Whoever counts along with the updates arrives at the number of members. -/
  tallied : ∀ (k : Nat) (cast : Cast), (casts r start events)[k]? = some cast →
    (cast.members.length : Int) = replayed ((casts r start events).take (k + 1))
  /-- A message is handed out as the room was asked to say it. -/
  voiced : ∀ (k : Nat) (cast : Cast) (playerId : Nat) (message : String),
    (casts r start events)[k]? = some cast →
    cast.task = .say playerId message → ∃ timestamp,
      cast.frame? = some (.broadcast { playerId := UInt64.ofNat playerId, message, timestamp })
  /-- The packets of a client, whatever their form, are taken up in the order in which they
  arrived. -/
  arrivals : ∀ c client, w.client? c = some client →
    ((takings start events).filter (·.client = c)).map Taking.packet ++ w.pending c =
      events.filterMap (Event.arrival? c)
  /-- The room is asked to say for a client what its packets say that are taken up while it sits
  there, and nothing else, in the order in which they are taken up. -/
  chats : ∀ c client room, w.client? c = some client → w.room? r = some room →
    room.hall = client.hall →
    (tasksIn (casts r start events) ++ w.queued r).filter (RoomTask.isSayOf client.sessionId) =
      ((takings start events).filter (·.client = c)).filterMap (·.speech? r)

/-- In every course of events in which clients are asked in and out by the jobs of their sessions
alone, every room broadcasts in order to its members. -/
theorem broadcasts_of_course (defaultRooms : List String) (events : List Event) (w : World)
    (indirect : ∀ e ∈ events, e.isDirect = false)
    (course : (opened defaultRooms).afterAll? events = some w) (r : RoomRef) :
    Broadcasts (opened defaultRooms) events w r := by
  have tended := (tended_of_opened indirect course).1
  have asked : tasksIn (casts r (opened defaultRooms) events) ++ w.queued r =
      history ((opened defaultRooms).performed events) w r :=
    congrArg (· ++ w.queued r) (tasksIn_casts indirect course)
  exact {
    order := by
      rintro first later u rfl until_u
      rw [afterAll?_append, until_u, Option.bind_some] at course
      have inOrder := (tended_of_opened (fun e mem =>
        indirect e (List.mem_append_left _ mem)) until_u).1.agreed.inOrder
      rw [asked, performed_append until_u]
      exact inOrder.isPrefix_history_course course r
    members := fun k cast listed =>
      have known := cast_of_course indirect course listed
      ⟨known.1, known.2.1⟩
    delivered := fun c client found connected => by
      refine handed_of_course indirect course (fun g there => ?_) fun s standing => ?_
      · obtain rfl := Option.some.inj ((guest?_of_client found).symm.trans there)
        have link : client.link = .connected :=
          of_decide_eq_true ((Bool.and_eq_true ..).mp connected).2
        exact tended.linked.connected c _ there link
      · obtain rfl := Option.some.inj ((standing?_of_client found).symm.trans standing)
        rfl
    common := fun c d client other _ _ => filter_mem_heard c d _ _ _
    counted := fun k cast update listed => (cast_of_course indirect course listed).2.2.1 update
    tallied := fun k cast listed => (cast_of_course indirect course listed).2.2.2.1
    voiced := fun k cast playerId message listed =>
      (cast_of_course indirect course listed).2.2.2.2 playerId message
    arrivals := fun c _ _ => arrivals_of_course indirect course c
    chats := fun c client room found there hall => by
      rw [asked]
      exact chats_of_course indirect course found there hall }

/-- Two clients come into the default room; the second says something in either form and leaves. -/
def smallTalk : List Event :=
  [.room 0 "lobby", .accept 0, .start 0 true, .arrive 0, .arrive 0, .arrive 0, .arrive 0,
    .accept 0, .start 0 true, .arrive 1, .arrive 1, .arrive 1, .arrive 1] ++
  List.replicate 5 (.work 1 0) ++ List.replicate 5 (.work 2 0) ++
  [.packet 1 (.binary 1 (Text.Utf8.encode "\x7b\"message\":\"hello\"\x7d")),
    .packet 1 (.json "\x7b\"Type\":\"SendMessage\",\"Message\":\"bye\"\x7d"),
    .packet 1 (.json "\x7b\"Type\":\"LeaveRoom\",\"RoomId\":\"lobby\"\x7d")] ++
  List.replicate 11 (.work 2 0) ++ List.replicate 11 (.work 0 0)

/-- Whoever talks and leaves hears the own entrance and the own words, and not the departure. -/
theorem broadcasts_of_course_smallTalk :
    ∃ w, (opened ["lobby"]).afterAll? smallTalk = some w ∧
      (∀ e ∈ smallTalk, e.isDirect = false) ∧ Broadcasts (opened ["lobby"]) smallTalk w 0 ∧
      (w.client? 1).any Client.isConnected = true ∧
      handed 0 1 (opened ["lobby"]) smallTalk =
        [.update { room := "lobby", event := .entered, playerId := some 2, memberCount := 2 },
          .broadcast { playerId := 2, message := "hello", timestamp := 0 },
          .broadcast { playerId := 2, message := "bye", timestamp := 0 }] := by
  have indirect : ∀ e ∈ smallTalk, e.isDirect = false := by decide
  have possible : ((opened ["lobby"]).afterAll? smallTalk).any
      (fun w => (w.client? 1).any Client.isConnected) = true := by
    decide +kernel
  obtain ⟨w, course, connected⟩ := (Option.any_eq_true ..).1 possible
  exact ⟨w, course, indirect, broadcasts_of_course ["lobby"] smallTalk w indirect course 0,
    connected, by decide +kernel⟩

end World

end ChatHall.Server
