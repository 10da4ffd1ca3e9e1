/-
# Seats and histories

Where a client has asked to be, and what the histories of the rooms say about
it. A client has asked to be in a room exactly if its last move in the history
of that room is an entrance; it asks for one only while it is nowhere, and to
leave only the room in which it is. So no entrance is performed for somebody
who is inside already.
-/

import ChatHall.Proofs.Server.Course

namespace ChatHall.Server

/-- Whether a task moves a client, who is known to the room by its player id. -/
def RoomTask.concerns (c : ClientRef) (playerId : Nat) : RoomTask → Bool
  | enter d => d = c
  | leave other => other = playerId
  | _ => false

def lastMove? (c : ClientRef) (playerId : Nat) (tasks : List RoomTask) : Option RoomTask :=
  (tasks.filter (RoomTask.concerns c playerId)).getLast?

section LastMove

variable {c : ClientRef} {playerId : Nat} {tasks later : List RoomTask} {task : RoomTask}

theorem lastMove?_append :
    lastMove? c playerId (tasks ++ later) =
      (lastMove? c playerId later).or (lastMove? c playerId tasks) := by
  rw [lastMove?, List.filter_append, List.getLast?_append]
  rfl

theorem lastMove?_append_of_other (other : ∀ t ∈ later, t.concerns c playerId = false) :
    lastMove? c playerId (tasks ++ later) = lastMove? c playerId tasks := by
  have none_left : later.filter (RoomTask.concerns c playerId) = [] := by
    apply List.filter_eq_nil_iff.2
    intro t mem
    rw [other t mem]
    exact Bool.false_ne_true
  have nothing : lastMove? c playerId later = none := congrArg List.getLast? none_left
  rw [lastMove?_append, nothing, Option.none_or]

theorem lastMove?_concat (concerned : task.concerns c playerId = true) :
    lastMove? c playerId (tasks ++ [task]) = some task := by
  have alone : lastMove? c playerId [task] = some task :=
    congrArg List.getLast? (List.filter_cons_of_pos concerned)
  rw [lastMove?_append, alone, Option.some_or]

/-- The last move of a client is an entrance, or else a departure if there is one. -/
theorem lastMove?_of_ne_enter (outside : lastMove? c playerId tasks ≠ some (.enter c)) :
    lastMove? c playerId tasks = none ∨ lastMove? c playerId tasks = some (.leave playerId) := by
  cases last : lastMove? c playerId tasks with
  | none => exact .inl rfl
  | some task =>
      right
      have concerned := (List.mem_filter.1 (List.mem_of_getLast? last)).2
      cases task with
      | enter d =>
          obtain rfl := of_decide_eq_true concerned
          exact absurd last outside
      | leave other =>
          obtain rfl := of_decide_eq_true concerned
          rfl
      | _ => contradiction

theorem enter_mem_of_lastMove? (inside : lastMove? c playerId tasks = some (.enter c)) :
    .enter c ∈ tasks := (List.mem_filter.1 (List.mem_of_getLast? inside)).1

theorem concerns_eq_false_of_not_isMove (still : task.isMove = false) :
    task.concerns c playerId = false := by
  cases task with
  | enter d => contradiction
  | leave other => contradiction
  | _ => rfl

end LastMove

namespace World

variable {w v u : World} {deeds : List Deed} {past later : List (RoomRef × RoomTask)}
variable {seats : ClientRef → Option RoomRef}

/-- Whether a room, if it is there, is in this hall. -/
def InHall (w : World) (r : RoomRef) (h : HallRef) : Prop :=
  ∀ room, w.room? r = some room → room.hall = h

/-- What the histories say about the clients, each of which has asked to be where `seats`
tells. -/
structure Seated (past : List (RoomRef × RoomTask)) (w : World)
    (seats : ClientRef → Option RoomRef) : Prop where
  lastMove : ∀ c s r, w.standing? c = some s → w.InHall r s.hall →
    (lastMove? c s.sessionId (history past w r) = some (.enter c) ↔ seats c = some r)
  /-- A client asks to be in a room of its own hall. -/
  seat : ∀ c r, seats c = some r →
    ∃ s room, w.standing? c = some s ∧ w.room? r = some room ∧ room.hall = s.hall
  entrant : ∀ r c, .enter c ∈ history past w r → ∃ s, w.standing? c = some s ∧ w.InHall r s.hall
  /-- Nobody who is inside asks to enter. -/
  outside : ∀ r c s pre post, w.standing? c = some s → history past w r = pre ++ .enter c :: post →
    lastMove? c s.sessionId pre ≠ some (.enter c)

theorem Extends.inHall (ext : Extends w v) {r : RoomRef} {h : HallRef} (inHall : v.InHall r h) :
    w.InHall r h := by
  intro room found
  obtain ⟨after, hafter, hall, -⟩ := ext.room r room found
  rw [← hall]
  exact inHall after hafter

/-- A client that is not there yet has no part in any history. -/
theorem Seated.not_mem_of_missing (h : Seated past w seats) {c : ClientRef}
    (missing : w.standing? c = none) (r : RoomRef) : .enter c ∉ history past w r := by
  intro entered
  obtain ⟨s, known, -⟩ := h.entrant r c entered
  rw [missing] at known
  contradiction

theorem Seated.seat_of_missing (h : Seated past w seats) {c : ClientRef}
    (missing : w.standing? c = none) (r : RoomRef) : seats c ≠ some r := by
  intro seated
  obtain ⟨s, room, known, -⟩ := h.seat c r seated
  rw [missing] at known
  contradiction

/-- A client that comes with a step has no part in the histories before it. -/
theorem Seated.lastMove_extends (h : Seated past w seats) (ext : Extends w v) {c : ClientRef}
    {s : Standing} {r : RoomRef} (known : v.standing? c = some s) (inHall : v.InHall r s.hall) :
    lastMove? c s.sessionId (history past w r) = some (.enter c) ↔ seats c = some r := by
  cases before : w.standing? c with
  | none =>
      constructor
      · intro inside
        exact absurd (enter_mem_of_lastMove? inside) (h.not_mem_of_missing before r)
      · intro seated
        exact absurd seated (h.seat_of_missing before r)
  | some t =>
      obtain rfl := Option.some.inj ((ext.standing c t before).symm.trans known)
      exact h.lastMove c t r before (ext.inHall inHall)

/-- The histories after a step agree with the seats as before, for a client and a room that the
step does not concern. -/
theorem Seated.lastMove_append (h : Seated past w seats) (ext : Extends w v) {c : ClientRef}
    {s : Standing} {r : RoomRef} (known : v.standing? c = some s) (inHall : v.InHall r s.hall)
    {pushed : List RoomTask} (other : ∀ t ∈ pushed, t.concerns c s.sessionId = false) :
    lastMove? c s.sessionId (history past w r ++ pushed) = some (.enter c) ↔ seats c = some r := by
  rw [lastMove?_append_of_other other]
  exact h.lastMove_extends ext known inHall

theorem Seated.seat_extends (h : Seated past w seats) (ext : Extends w v) {c : ClientRef}
    {r : RoomRef} (seated : seats c = some r) :
    ∃ s room, v.standing? c = some s ∧ v.room? r = some room ∧ room.hall = s.hall := by
  obtain ⟨s, room, known, found, hall⟩ := h.seat c r seated
  obtain ⟨after, hafter, same, -⟩ := ext.room r room found
  exact ⟨s, after, ext.standing c s known, hafter, same.trans hall⟩

/-- An entrance that was asked for before a step is one of a client of the room's hall. -/
theorem Seated.entrant_extends (h : Seated past w seats) (inOrder : InOrder past w)
    (ext : Extends w v) {r : RoomRef} {c : ClientRef} (entered : .enter c ∈ history past w r) :
    ∃ s, v.standing? c = some s ∧ v.InHall r s.hall := by
  obtain ⟨s, known, inHall⟩ := h.entrant r c entered
  refine ⟨s, ext.standing c s known, fun after hafter => ?_⟩
  obtain ⟨room, found⟩ := inOrder.room_of_mem_history entered
  obtain ⟨same, hsame, hall, -⟩ := ext.room r room found
  obtain rfl := Option.some.inj (hsame.symm.trans hafter)
  rw [hall]
  exact inHall room found

theorem Seated.outside_extends (h : Seated past w seats) (ext : Extends w v) {r : RoomRef}
    {c : ClientRef} {s : Standing} (known : v.standing? c = some s) {pre post : List RoomTask}
    (split : history past w r = pre ++ .enter c :: post) :
    lastMove? c s.sessionId pre ≠ some (.enter c) := by
  have entered : .enter c ∈ history past w r := by
    rw [split]
    exact List.mem_append_right _ List.mem_cons_self
  obtain ⟨t, before, -⟩ := h.entrant r c entered
  obtain rfl := Option.some.inj ((ext.standing c t before).symm.trans known)
  exact h.outside r c t pre post before split

/-! ## Steps -/

theorem not_concerns_of_noMoves (still : NoMoves deeds) {r : RoomRef} {c : ClientRef}
    {playerId : Nat} : ∀ t ∈ tasksOf r (pushedIn deeds), t.concerns c playerId = false :=
  fun t mem => concerns_eq_false_of_not_isMove (still (r, t) (mem_tasksOf.1 mem))

theorem not_enter_of_noMoves (still : NoMoves deeds) {r : RoomRef} {c : ClientRef} :
    .enter c ∉ tasksOf r (pushedIn deeds) :=
  fun mem => Bool.noConfusion (still (r, .enter c) (mem_tasksOf.1 mem))

/-- An entrance in a longer history stands in the shorter one, with what was before it. -/
theorem split_of_append {tasks pushed pre post : List RoomTask} {c : ClientRef}
    (other : .enter c ∉ pushed) (split : tasks ++ pushed = pre ++ .enter c :: post) :
    ∃ rest, tasks = pre ++ .enter c :: rest := by
  rcases List.append_eq_append_iff.1 split with ⟨mid, hpre, hpushed⟩ | ⟨mid, htasks, hpost⟩
  · have mem : .enter c ∈ pushed := by
      rw [hpushed]
      exact List.mem_append_right _ List.mem_cons_self
    exact absurd mem other
  · cases mid with
    | nil =>
        have mem : .enter c ∈ pushed := by
          rw [← List.nil_append pushed, ← hpost]
          exact List.mem_cons_self
        exact absurd mem other
    | cons task rest =>
        obtain ⟨rfl, -⟩ := List.cons.inj hpost
        exact ⟨rest, htasks⟩

theorem split_of_concat {tasks pre post : List RoomTask} {task : RoomTask} {c : ClientRef}
    (split : tasks ++ [task] = pre ++ .enter c :: post) :
    tasks = pre ∧ task = .enter c ∨ ∃ rest, tasks = pre ++ .enter c :: rest := by
  by_cases last : task = .enter c
  · rcases List.eq_nil_or_concat post with rfl | ⟨rest, final, rfl⟩
    · exact .inl ⟨List.append_inj_left' split rfl, last⟩
    · rw [List.concat_eq_append, ← List.cons_append, ← List.append_assoc] at split
      exact .inr ⟨rest, List.append_inj_left' split rfl⟩
  · exact .inr (split_of_append (fun mem => last (List.mem_singleton.1 mem).symm) split)

/-- What is pushed concerns nobody. -/
theorem Seated.still (h : Seated past w seats) (inOrder : InOrder past w) (moves : Moves w deeds v)
    (still : NoMoves deeds) : Seated (past ++ ranIn deeds) v seats where
  lastMove c s r known inHall := by
    rw [moves.history inOrder]
    exact h.lastMove_append moves.extends known inHall (not_concerns_of_noMoves still)
  seat c r seated := h.seat_extends moves.extends seated
  entrant r c entered := by
    rw [moves.history inOrder] at entered
    rcases List.mem_append.1 entered with old | new
    · exact h.entrant_extends inOrder moves.extends old
    · exact absurd new (not_enter_of_noMoves still)
  outside r c s pre post known split := by
    rw [moves.history inOrder] at split
    obtain ⟨rest, before⟩ := split_of_append (not_enter_of_noMoves still) split
    exact h.outside_extends moves.extends known before

section OneMove

variable {c : ClientRef} {s : Standing} {r : RoomRef}

/-- The history of one room grows by one task, those of the others stay. -/
theorem Moves.history_push {task : RoomTask} (moves : Moves w [.push r task] v)
    (inOrder : InOrder past w) (k : RoomRef) :
    World.history past v k =
      if r = k then World.history past w k ++ [task] else World.history past w k := by
  have grown := moves.history inOrder k
  have none_run : past ++ ranIn [.push r task] = past := List.append_nil past
  rw [none_run] at grown
  have pushed : tasksOf k (pushedIn [.push r task]) = if r = k then [task] else [] :=
    tasksOf_cons k (r, task) []
  rw [grown, pushed]
  split
  · rfl
  · exact List.append_nil _

/-- A client that is nowhere asks to enter a room of its hall. -/
theorem Seated.enter (h : Seated past w seats) (inOrder : InOrder past w)
    (moves : Moves w [.push r (.enter c)] v) (known : w.standing? c = some s)
    {room : Room} (found : v.room? r = some room) (hall : room.hall = s.hall)
    (nowhere : seats c = none) :
    Seated past v fun d => if d = c then some r else seats d where
  lastMove d t k knownD inHall := by
    rw [moves.history_push inOrder]
    by_cases here : r = k
    · subst here
      rw [if_pos rfl]
      by_cases same : d = c
      · subst same
        have concerned : (RoomTask.enter d).concerns d t.sessionId = true := decide_eq_true rfl
        rw [lastMove?_concat concerned, if_pos rfl]
        exact ⟨fun _ => rfl, fun _ => rfl⟩
      · rw [if_neg same]
        apply h.lastMove_append moves.extends knownD inHall
        intro task mem
        obtain rfl := List.mem_singleton.1 mem
        exact decide_eq_false (Ne.symm same)
    · rw [if_neg here, h.lastMove_extends moves.extends knownD inHall]
      by_cases same : d = c
      · subst same
        rw [if_pos rfl, nowhere, Option.some.injEq]
        exact ⟨fun wrong => (nomatch wrong), fun there => absurd there here⟩
      · rw [if_neg same]
  seat d k seated := by
    by_cases same : d = c
    · subst same
      rw [if_pos rfl] at seated
      obtain rfl := Option.some.inj seated
      exact ⟨s, room, moves.extends.standing d s known, found, hall⟩
    · rw [if_neg same] at seated
      exact h.seat_extends moves.extends seated
  entrant k d entered := by
    rw [moves.history_push inOrder] at entered
    split at entered
    · next here =>
        rcases List.mem_append.1 entered with old | new
        · exact h.entrant_extends inOrder moves.extends old
        · obtain rfl := RoomTask.enter.inj (List.mem_singleton.1 new)
          refine ⟨s, moves.extends.standing d s known, fun other hother => ?_⟩
          rw [← here, found] at hother
          obtain rfl := Option.some.inj hother
          exact hall
    · exact h.entrant_extends inOrder moves.extends entered
  outside k d t pre post knownD split := by
    rw [moves.history_push inOrder] at split
    split at split
    · next here =>
        rcases split_of_concat split with ⟨rfl, last⟩ | ⟨rest, before⟩
        · obtain rfl := RoomTask.enter.inj last
          obtain rfl := Option.some.inj ((moves.extends.standing _ s known).symm.trans knownD)
          have inHall : v.InHall k s.hall := by
            intro other hother
            rw [← here, found] at hother
            obtain rfl := Option.some.inj hother
            exact hall
          intro inside
          have seated := (h.lastMove _ s k known (moves.extends.inHall inHall)).1 inside
          rw [nowhere] at seated
          contradiction
        · exact h.outside_extends moves.extends knownD before
    · exact h.outside_extends moves.extends knownD split

/-- A client asks to leave the room in which it is. -/
theorem Seated.leave (h : Seated past w seats) (inOrder : InOrder past w)
    (moves : Moves w [.push r (.leave s.sessionId)] v) (known : w.standing? c = some s)
    (there : seats c = some r) : Seated past v fun d => if d = c then none else seats d where
  lastMove d t k knownD inHall := by
    rw [moves.history_push inOrder]
    by_cases here : r = k
    · subst here
      rw [if_pos rfl]
      by_cases same : d = c
      · subst same
        obtain rfl := Option.some.inj ((moves.extends.standing d s known).symm.trans knownD)
        have concerned : (RoomTask.leave s.sessionId).concerns d s.sessionId = true :=
          decide_eq_true rfl
        rw [lastMove?_concat concerned, if_pos rfl]
        exact ⟨fun wrong => RoomTask.noConfusion (Option.some.inj wrong), fun wrong => nomatch wrong⟩
      · rw [if_neg same]
        apply h.lastMove_append moves.extends knownD inHall
        intro task mem
        obtain rfl := List.mem_singleton.1 mem
        apply decide_eq_false
        intro sessionId
        obtain ⟨s', room, known', found, hall⟩ := h.seat_extends moves.extends there
        obtain rfl := Option.some.inj ((moves.extends.standing c s known).symm.trans known')
        have halls : s.hall = t.hall := hall.symm.trans (inHall room found)
        have distinct := (inOrder.furnished.moves moves).distinct
        exact same (distinct c d s t known' knownD halls sessionId).symm
    · rw [if_neg here, h.lastMove_extends moves.extends knownD inHall]
      by_cases same : d = c
      · subst same
        rw [if_pos rfl, there, Option.some.injEq]
        exact ⟨fun wrong => absurd wrong here, fun wrong => nomatch wrong⟩
      · rw [if_neg same]
  seat d k seated := by
    by_cases same : d = c
    · rw [if_pos same] at seated
      contradiction
    · rw [if_neg same] at seated
      exact h.seat_extends moves.extends seated
  entrant k d entered := by
    rw [moves.history_push inOrder] at entered
    split at entered
    · rcases List.mem_append.1 entered with old | new
      · exact h.entrant_extends inOrder moves.extends old
      · exact RoomTask.noConfusion (List.mem_singleton.1 new)
    · exact h.entrant_extends inOrder moves.extends entered
  outside k d t pre post knownD split := by
    rw [moves.history_push inOrder] at split
    split at split
    · rcases split_of_concat split with ⟨-, last⟩ | ⟨rest, before⟩
      · contradiction
      · exact h.outside_extends moves.extends knownD before
    · exact h.outside_extends moves.extends knownD split

end OneMove

end World

end ChatHall.Server
