/-
# Disconnecting

Whoever disconnects first claims the one disconnect and stands right before the
call of the closing hook; all others find it claimed and do nothing. The receive
task cannot end without asking for the disconnect. Behind the claim every sender
is turned away, so what still gets into the send queue was let in before, and
each drain that is started for it finds the connection gone and empties the
queue. When the last of the connection's own tasks is over, nothing is left.
-/

import ChatHall.Proofs.Session.Callbacks

namespace ChatHall.Session

namespace Operation

/-- The segments that an operation is about to queue. -/
def asked : Operation → List Bytes
  | enqueue segments => segments
  | _ => []

/-- Whether an operation has a disconnect behind it: one of the receive loop, or the disconnect. -/
def isLeaving (o : Operation) : Bool := o.isLoop || o == .act .disconnect

theorem asked_of_isPlain {o : Operation} (plain : o.isPlain = true) : o.asked = [] := by
  cases o with
  | enqueue segments => contradiction
  | _ => rfl

end Operation

namespace Outward

variable {s t : Outward} {o : Operation} {first more ops : List Operation}

/-- Only the disconnect ends the connection. -/
theorem Turn.isConnected_eq (turn : Turn s o t first more) (other : o ≠ .act .disconnect) :
    t.isConnected = s.isConnected := by
  cases turn with
  | disconnect => contradiction
  | _ => rfl

/-- A drain goes on in the thread that it is in, and starts only in one of its own. -/
theorem Turn.isDrain_first (turn : Turn s o t first more) (other : o.isDrain = false) :
    ∀ p ∈ first, p.isDrain = false := by
  cases turn with
  | plain _ _ _ after => exact fun p mem => Operation.isDrain_of_isPlain (after p mem)
  | report _ _ after => exact fun p mem => Operation.isDrain_of_isPlain (after p mem)
  | collect | stop | begin | miss | write | written => contradiction
  | interrupted | failed | complete | clearPending => contradiction
  | ask | disconnect => simp [Operation.isDrain]
  | _ => exact fun _ mem => nomatch mem

theorem flatMap_asked_of_isPlain (plain : ∀ p ∈ ops, p.isPlain = true) :
    ops.flatMap Operation.asked = [] :=
  List.flatMap_eq_nil_iff.2 fun p mem => Operation.asked_of_isPlain (plain p mem)

/-- Apart from what callers ask for, segments are accepted as they were asked for. -/
theorem Turn.accepts (turn : Turn s o t first more) (other : ∀ a, o ≠ .act a) :
    t.accepted ++ first.flatMap Operation.asked ++ more.flatMap Operation.asked =
      s.accepted ++ o.asked := by
  cases turn with
  | plain _ _ plain after =>
      rw [flatMap_asked_of_isPlain after, Operation.asked_of_isPlain plain]
      exact List.append_nil _
  | report _ _ after =>
      rw [flatMap_asked_of_isPlain after]
      exact List.append_nil _
  | ask a => exact absurd rfl (other a)
  | disconnect => exact absurd rfl (other _)
  | enqueue | wake => exact (List.append_nil _).trans (List.append_nil _)
  | _ => exact List.append_nil _

end Outward

namespace Connection

variable {σ : Type} {handler : Handler σ} {c d e : Connection σ} {o : Operation} {choice : Choice}
variable {first : List Operation} {sent : Bytes} {callers : List Nat}

/-- The segments that senders who were let in have still to queue. -/
def asking (c : Connection σ) : List Bytes := c.threads.flatten.flatMap Operation.asked

/-- A run that remembers which threads are those of callers. All others are tasks of the
connection itself: the receive task, the drains, and the one that shuts the socket down. -/
inductive Attended (handler : Handler σ) (c : Connection σ) : List Nat → Connection σ → Prop
  | refl : Attended handler c [] c
  | thread {callers : List Nat} {d e : Connection σ} (run : Attended handler c callers d) (i : Nat)
      (choice : Choice) (moves : d.step? handler i choice = some e) : Attended handler c callers e
  | caller {callers : List Nat} {d : Connection σ} (run : Attended handler c callers d)
      (a : Action) : Attended handler c (d.threads.length :: callers) (d.spawn [.act a])
  | peerSends {callers : List Nat} {d : Connection σ} (run : Attended handler c callers d)
      (data : Bytes) (open_ : d.peerClosed = false) :
      Attended handler c callers { d with inbox := d.inbox ++ data }
  | peerCloses {callers : List Nat} {d : Connection σ} (run : Attended handler c callers d) :
      Attended handler c callers { d with peerClosed := true }

/-- Remembering changes nothing. -/
theorem exists_run_iff_attended :
    (∃ sent, Run handler c sent d) ↔ ∃ callers, Attended handler c callers d := by
  constructor
  · rintro ⟨sent, run⟩
    induction run with
    | refl => exact ⟨[], .refl⟩
    | thread _ i choice moves ih =>
        obtain ⟨callers, run⟩ := ih
        exact ⟨callers, run.thread i choice moves⟩
    | caller _ a ih =>
        obtain ⟨callers, run⟩ := ih
        exact ⟨_, run.caller a⟩
    | peerSends _ data open_ ih =>
        obtain ⟨callers, run⟩ := ih
        exact ⟨callers, run.peerSends data open_⟩
    | peerCloses _ ih =>
        obtain ⟨callers, run⟩ := ih
        exact ⟨callers, run.peerCloses⟩
  · rintro ⟨callers, run⟩
    induction run with
    | refl => exact ⟨[], .refl⟩
    | thread _ i choice moves ih =>
        obtain ⟨sent, run⟩ := ih
        exact ⟨sent, run.thread i choice moves⟩
    | caller _ a ih =>
        obtain ⟨sent, run⟩ := ih
        exact ⟨sent, run.caller a⟩
    | peerSends _ data open_ ih =>
        obtain ⟨sent, run⟩ := ih
        exact ⟨_, run.peerSends data open_⟩
    | peerCloses _ ih =>
        obtain ⟨sent, run⟩ := ih
        exact ⟨sent, run.peerCloses⟩

/-! ## Behind the disconnect -/

theorem act_of_gone (gone : c.isConnected = false) (a : Action) :
    c.act a = (if a = .disconnect then c else c.note .refused, []) := by
  cases a with
  | disconnect => rw [act, if_neg (ne_true_of_eq_false gone), if_pos rfl]
  | send segment => simp [act, gone]
  | sendMany segments => simp [act, gone]

/-- A disconnected connection stays so, and accepts what senders were let in with. -/
structure Gone (c d : Connection σ) : Prop where
  gone : d.isConnected = false
  accepts : (d.accepted ++ d.asking).Perm (c.accepted ++ c.asking)

theorem Gone.refl (gone : c.isConnected = false) : Gone c c := ⟨gone, .refl _⟩

theorem Gone.trans (earlier : Gone c d) (later : Gone d e) : Gone c e :=
  ⟨later.gone, later.accepts.trans earlier.accepts⟩

/-- Behind the disconnect nothing is accepted but what was asked for before. -/
theorem Performs.accepts {result : Connection σ × List Operation} {more : List (List Operation)}
    (performs : Performs handler c o result) (gone : c.isConnected = false)
    (spawned : result.1.threads = c.threads ++ more)
    (turn : Outward.Turn c.outward o result.1.outward result.2 more.flatten) :
    result.1.accepted ++ result.2.flatMap Operation.asked ++
      more.flatten.flatMap Operation.asked = c.accepted ++ o.asked := by
  cases performs with
  | act a =>
      rw [act_of_gone gone] at spawned ⊢
      have none_more : more = [] := by
        split at spawned
        · exact List.append_right_eq_self.1 spawned.symm
        · exact List.append_right_eq_self.1 spawned.symm
      have same : (if a = .disconnect then c else c.note .refused).accepted = c.accepted := by
        split
        · rfl
        · exact (accepted_note c .refused).trans (List.append_nil _)
      rw [none_more, same]
      exact List.append_nil _
  | _ => exact turn.accepts nofun

theorem gone_of_step? {i : Nat} (gone : c.isConnected = false)
    (moves : c.step? handler i choice = some d) : Gone c d := by
  obtain ⟨before, o, rest, after, e, first, was, performed, rfl⟩ := step?_cases moves
  have performs := performs_of_perform? performed
  obtain ⟨more, spawned, turn⟩ := performs.turns
  obtain ⟨ops, left⟩ := flatten_threads was (d := { e with threads := _ }) (set_threads was spawned)
  have accepts := performs.accepts gone spawned turn
  refine ⟨turn.isConnected gone, ?_⟩
  rw [asking, asking, ops, left, List.perm_iff_count]
  intro segment
  have counted := congrArg (List.count segment) accepts
  have same : ({ e with threads := e.threads.set before.length (first ++ rest) } :
      Connection σ).accepted = e.accepted := rfl
  rw [same]
  simp only [List.flatMap_append, List.flatMap_cons, List.count_append] at counted ⊢
  omega

theorem gone_of_run (gone : c.isConnected = false) (run : Run handler c sent d) : Gone c d := by
  induction run with
  | refl => exact .refl gone
  | thread _ i choice moves ih => exact ih.trans (gone_of_step? ih.gone moves)
  | @caller _ d _ a ih =>
      have same : (d.spawn [.act a]).asking = d.asking := by
        rw [asking, spawn, List.flatten_append, List.flatMap_append]
        exact List.append_nil _
      exact ⟨ih.gone, same ▸ ih.accepts⟩
  | peerSends _ _ _ ih => exact ⟨ih.gone, ih.accepts⟩
  | peerCloses _ ih => exact ⟨ih.gone, ih.accepts⟩

/-! ## The receive task -/

section Thread

variable {before after more : List (List Operation)} {rest : List Operation}

/-- A thread has gone on, or is as it was. -/
theorem thread_cases (was : c.threads = before ++ (o :: rest) :: after)
    (now : d.threads = before ++ (first ++ rest) :: (after ++ more)) {i : Nat}
    {thread : List Operation} (there : c.threads[i]? = some thread) :
    (thread = o :: rest ∧ d.threads[i]? = some (first ++ rest)) ∨ d.threads[i]? = some thread := by
  rw [was] at there
  rw [now]
  rcases Nat.lt_trichotomy i before.length with earlier | rfl | later
  · rw [List.getElem?_append_left earlier] at there ⊢
    exact .inr there
  · rw [List.getElem?_append_right (Nat.le_refl _), Nat.sub_self] at there ⊢
    exact .inl ⟨(Option.some.inj there).symm, rfl⟩
  · obtain ⟨k, rfl⟩ := Nat.exists_eq_add_of_lt later
    rw [List.getElem?_append_right (by omega), Nat.add_assoc, Nat.add_sub_cancel_left,
      List.getElem?_cons_succ] at there ⊢
    obtain ⟨inside, -⟩ := List.getElem?_eq_some_iff.1 there
    rw [List.getElem?_append_left inside]
    exact .inr there

end Thread

/-- The receive task has not ended without a disconnect. -/
def Leaves (c : Connection σ) : Prop :=
  ∃ task, c.threads[0]? = some task ∧
    (c.isConnected = false ∨ ∃ o ∈ task, o.isLeaving = true)

/-- The operation of a receive loop has another one or the disconnect behind it. -/
theorem Performs.isLeaving {result : Connection σ × List Operation}
    (performs : Performs handler c o result) (leaving : o.isLeaving = true) :
    result.1.isConnected = false ∨ ∃ p ∈ result.2, p.isLeaving = true := by
  cases performs with
  | act a =>
      left
      obtain rfl : a = .disconnect := by simpa [Operation.isLeaving, Operation.isLoop] using leaving
      exact isConnected_act_disconnect c
  | prepare | quit | read | judge => exact .inr ⟨_, List.mem_singleton_self _, rfl⟩
  | choke | refuse | condemn => exact .inr ⟨_, List.mem_singleton_self _, rfl⟩
  | deliver => exact .inr ⟨_, List.mem_append_right _ (List.mem_singleton_self _), rfl⟩
  | _ => contradiction

theorem Leaves.step? {i : Nat} (leaves : Leaves c) (moves : c.step? handler i choice = some d) :
    Leaves d := by
  obtain ⟨before, o, rest, after, e, first, was, performed, result⟩ := step?_cases moves
  have performs := performs_of_perform? performed
  obtain ⟨more, spawned, turn⟩ := performs.turns
  have now : d.threads = before ++ (first ++ rest) :: (after ++ more) := by
    rw [result]
    exact set_threads was spawned
  have same : d.isConnected = e.isConnected := by rw [result]
  have kept : c.isConnected = false → d.isConnected = false := fun gone =>
    same.trans (turn.isConnected gone)
  obtain ⟨task, there, leaves⟩ := leaves
  rcases thread_cases was now there with ⟨rfl, goesOn⟩ | stays
  · refine ⟨first ++ rest, goesOn, ?_⟩
    rcases leaves with gone | ⟨p, mem, leaving⟩
    · exact .inl (kept gone)
    · rcases List.mem_cons.1 mem with rfl | later
      · rcases performs.isLeaving leaving with gone | ⟨q, new, leaving⟩
        · exact .inl (same.trans gone)
        · exact .inr ⟨q, List.mem_append_left _ new, leaving⟩
      · exact .inr ⟨p, List.mem_append_right _ later, leaving⟩
  · exact ⟨task, stays, leaves.imp kept id⟩

/-- Who has claimed the disconnect calls the closing hook next. -/
def Prompt (c : Connection σ) : Prop :=
  ∀ thread ∈ c.threads, .call .disconnected ∉ thread.tail

theorem Performs.prompt {result : Connection σ × List Operation}
    (performs : Performs handler c o result) : .call .disconnected ∉ result.2.tail := by
  by_cases claims : o = .act .disconnect
  · subst claims
    have rest : .call .disconnected ∉ [Operation.cancel, .startClosing] := by decide
    cases performs with
    | act =>
        rw [Connection.act]
        split
        · exact rest
        · exact List.not_mem_nil
  · obtain ⟨more, -, turn⟩ := performs.turns
    have farewell := performs.goes.farewell
    have same : result.1.isConnected = c.isConnected := turn.isConnected_eq claims
    rw [same, Nat.add_eq_right, List.count_eq_zero] at farewell
    exact fun mem => farewell (List.mem_of_mem_tail mem)

theorem Prompt.step? {i : Nat} (prompt : Prompt c) (moves : c.step? handler i choice = some d) :
    Prompt d := by
  obtain ⟨before, o, rest, after, e, first, was, performed, rfl⟩ := step?_cases moves
  have performs := performs_of_perform? performed
  obtain ⟨more, spawned, quiet⟩ := performs.goes.threads
  intro thread mem
  have moved := performs.prompt
  have waiting : .call .disconnected ∉ rest := by
    refine prompt (o :: rest) ?_
    rw [was]
    exact List.mem_append_right _ List.mem_cons_self
  rw [set_threads was spawned] at mem
  simp only [List.mem_append, List.mem_cons] at mem
  rcases mem with earlier | rfl | later | new
  · exact prompt thread (by rw [was]; exact List.mem_append_left _ earlier)
  · cases first with
    | nil => exact fun mem => waiting (List.mem_of_mem_tail mem)
    | cons p first =>
        rw [List.cons_append, List.tail_cons, List.mem_append, not_or]
        exact ⟨moved, waiting⟩
  · refine prompt thread ?_
    rw [was]
    exact List.mem_append_right _ (List.mem_cons_of_mem _ later)
  · intro mem
    have calm := quiet _ (List.mem_flatten.2 ⟨thread, new, List.mem_of_mem_tail mem⟩)
    contradiction

/-! ## Runs -/

/-- Callers have no part in a drain. -/
def Unmixed (callers : List Nat) (c : Connection σ) : Prop :=
  ∀ i ∈ callers, ∃ thread, c.threads[i]? = some thread ∧ ∀ o ∈ thread, o.isDrain = false

theorem Unmixed.step? {i : Nat} (unmixed : Unmixed callers c)
    (moves : c.step? handler i choice = some d) : Unmixed callers d := by
  obtain ⟨before, o, rest, after, e, first, was, performed, rfl⟩ := step?_cases moves
  obtain ⟨more, spawned, turn⟩ := (performs_of_perform? performed).turns
  intro j caller
  obtain ⟨thread, there, others⟩ := unmixed j caller
  rcases thread_cases was (d := { e with threads := _ }) (set_threads was spawned) there with
    ⟨rfl, goesOn⟩ | stays
  · refine ⟨first ++ rest, goesOn, fun p mem => ?_⟩
    rcases List.mem_append.1 mem with new | later
    · exact turn.isDrain_first (others o List.mem_cons_self) p new
    · exact others p (List.mem_cons_of_mem _ later)
  · exact ⟨thread, stays, others⟩

theorem Unmixed.spawn (unmixed : Unmixed callers c) (a : Action) :
    Unmixed (c.threads.length :: callers) (c.spawn [.act a]) := by
  intro i caller
  rcases List.mem_cons.1 caller with rfl | earlier
  · exact ⟨[.act a], List.getElem?_concat_length, fun o mem => List.mem_singleton.1 mem ▸ rfl⟩
  · obtain ⟨thread, there, others⟩ := unmixed i earlier
    refine ⟨thread, ?_, others⟩
    rw [Connection.spawn, List.getElem?_append_left (List.getElem?_eq_some_iff.1 there).1]
    exact there

theorem unmixed_of_attended {s : σ} {size : Nat}
    (run : Attended handler (start s size) callers c) : Unmixed callers c := by
  induction run with
  | refl => exact fun _ mem => nomatch mem
  | thread _ i choice moves ih => exact ih.step? moves
  | caller _ a ih => exact ih.spawn a
  | peerSends _ _ _ ih => exact ih
  | peerCloses _ ih => exact ih

theorem leaves_of_run {s : σ} {size : Nat} (run : Run handler (start s size) sent c) :
    Leaves c := by
  induction run with
  | refl => exact ⟨_, rfl, .inr ⟨.prepare, by simp, rfl⟩⟩
  | thread _ i choice moves ih => exact ih.step? moves
  | caller _ a ih =>
      obtain ⟨task, there, leaves⟩ := ih
      refine ⟨task, ?_, leaves⟩
      rw [Connection.spawn, List.getElem?_append_left (List.getElem?_eq_some_iff.1 there).1]
      exact there
  | peerSends _ _ _ ih => exact ih
  | peerCloses _ ih => exact ih

theorem prompt_of_run {s : σ} {size : Nat} (run : Run handler (start s size) sent c) :
    Prompt c := by
  induction run with
  | refl => simp [Prompt, start]
  | thread _ i choice moves ih => exact ih.step? moves
  | caller _ a ih =>
      intro thread mem
      rcases List.mem_append.1 mem with earlier | new
      · exact ih thread earlier
      · rw [List.mem_singleton.1 new]
        exact List.not_mem_nil
  | peerSends _ _ _ ih => exact ih
  | peerCloses _ ih => exact ih

/-- Whether somebody has claimed the disconnect and has not yet called the closing hook. -/
def IsParting (c : Connection σ) : Prop :=
  ∃ thread ∈ c.threads, thread.head? = some (.call .disconnected)

theorem isParting_iff (prompt : Prompt c) :
    c.IsParting ↔ .call .disconnected ∈ c.threads.flatten := by
  constructor
  · rintro ⟨thread, mem, next⟩
    obtain ⟨rest, rfl⟩ := List.head?_eq_some_iff.1 next
    exact List.mem_flatten.2 ⟨_, mem, List.mem_cons_self⟩
  · intro mem
    obtain ⟨thread, listed, mem⟩ := List.mem_flatten.1 mem
    refine ⟨thread, listed, ?_⟩
    cases thread with
    | nil => contradiction
    | cons o rest =>
        rcases List.mem_cons.1 mem with rfl | later
        · rfl
        · exact absurd later (prompt _ listed)

/-- What is sure of the disconnect in a run with these callers. -/
structure Departs (handler : Handler σ) (callers : List Nat) (c : Connection σ) : Prop where
  /-- The closing hook is called once at most. -/
  once : c.callbacks.count .disconnected ≤ 1
  /-- When the receive task has ended, the disconnect has been claimed, and whoever claimed it has
  called the hook or is about to do so with its next step. -/
  ended : c.threads[0]? = some [] →
    c.isConnected = false ∧ (¬ c.IsParting → c.callbacks.count .disconnected = 1)
  /-- A connection that is gone stays so, and queues only what senders were let in with. -/
  gone : c.isConnected = false → ∀ sent d, Run handler c sent d →
    d.isConnected = false ∧ (d.accepted ++ d.asking).Perm (c.accepted ++ c.asking)
  /-- Who sends then is turned away, and that is all. -/
  refuses : c.isConnected = false → ∀ i choice a rest d, c.threads[i]? = some (.act a :: rest) →
    a ≠ .disconnect → c.step? handler i choice = some d →
    d = { c.note .refused with threads := c.threads.set i rest }
  /-- When the tasks of the connection are over, nothing is left behind. -/
  settled : (∀ i thread, c.threads[i]? = some thread → i ∈ callers ∨ thread = []) →
    c.sendQueue = [] ∧ c.pending = false

/-- However the disconnect comes about, it happens once and leaves nothing behind. -/
theorem departs_of_attended {s : σ} {size : Nat}
    (run : Attended handler (start s size) callers c) : Departs handler callers c := by
  obtain ⟨sent, plain⟩ := exists_run_iff_attended.2 ⟨callers, run⟩
  have calls := calls_of_run plain
  have prompt := prompt_of_run plain
  exact {
    once := by
      have farewell := calls.farewell
      omega
    ended := by
      intro finished
      obtain ⟨task, there, leaves⟩ := leaves_of_run plain
      obtain rfl := Option.some.inj (there.symm.trans finished)
      have gone : c.isConnected = false := leaves.resolve_right fun ⟨_, mem, _⟩ => nomatch mem
      refine ⟨gone, fun idle => ?_⟩
      have farewell := calls.farewell
      have none_left := List.count_eq_zero.2 (mt (isParting_iff prompt).2 idle)
      rw [gone, none_left, Nat.zero_add] at farewell
      exact farewell
    gone := fun gone sent d later => ⟨(gone_of_run gone later).gone, (gone_of_run gone later).accepts⟩
    refuses := by
      intro gone i choice a rest d there other moves
      rw [step?, there] at moves
      cases choice with
      | plain =>
          obtain rfl := Option.some.inj moves
          rw [act_of_gone gone, if_neg other]
          rfl
      | _ => contradiction
    settled := by
      intro finished
      have sound := sound_of_run plain
      have none_drains : c.threads.flatten.countP Operation.isDrain = 0 := by
        refine List.countP_eq_zero.2 fun o mem => ne_true_of_eq_false ?_
        obtain ⟨thread, listed, mem⟩ := List.mem_flatten.1 mem
        obtain ⟨i, there⟩ := List.getElem?_of_mem listed
        rcases finished i thread there with caller | rfl
        · obtain ⟨_, found, others⟩ := unmixed_of_attended run i caller
          obtain rfl := Option.some.inj (found.symm.trans there)
          exact others o mem
        · contradiction
      have idle : c.pending = false := by
        have drains := sound.drains
        rw [none_drains] at drains
        exact Bool.toNat_eq_zero.1 drains.symm
      refine ⟨?_, idle⟩
      by_contra some
      exact Bool.noConfusion (idle.symm.trans (sound.queued.awake some)) }

theorem Attended.steps {moves : List (Nat × Choice)} (run : Attended handler c callers d)
    (moved : d.steps? handler moves = some e) : Attended handler c callers e := by
  induction moves generalizing d with
  | nil =>
      obtain rfl := Option.some.inj moved
      exact run
  | cons move later ih =>
      rw [steps?, List.foldlM_cons] at moved
      obtain ⟨mid, first, rest⟩ := Option.bind_eq_some_iff.1 moved
      exact ih (run.thread move.1 move.2 first) rest

/-- A sender is let in, and queues only when another caller has disconnected, the receive task has
ended and the socket is shut down. The drain that is started for it empties the queue. -/
def lateSend : List (Nat × Choice) :=
  [(1, .plain), (2, .plain), (2, .plain), (2, .plain), (2, .plain), (0, .plain), (0, .plain),
    (0, .cancelled), (0, .plain), (3, .plain), (3, .plain), (3, .plain), (3, .plain), (1, .plain),
    (4, .plain), (4, .plain), (4, .plain)]

theorem departs_of_attended_lateSend :
    let handler := Server.reception ({} : Net.Settings).limits
    ∃ c, Attended handler (start [] 64) [2, 1] c ∧ Departs handler [2, 1] c ∧
      c.threads = [[], [], [], [], []] ∧ c.callbacks = [.disconnected, .connected] ∧
      c.accepted = [[1]] ∧ c.outbox = [] := by
  intro handler
  have called : Attended handler (start [] 64) [2, 1] _ :=
    (Attended.refl.caller (.send [1])).caller .disconnect
  have moved : ((((start [] 64).spawn [.act (.send [1])]).spawn
      [.act .disconnect]).steps? handler lateSend).map
      (fun c => (c.threads, c.callbacks, c.accepted, c.outbox)) =
      some ([[], [], [], [], []], [.disconnected, .connected], [[1]], []) := by
    decide +kernel
  obtain ⟨c, moves, after⟩ := Option.map_eq_some_iff.1 moved
  simp only [Prod.mk.injEq] at after
  have run := called.steps moves
  exact ⟨c, run, departs_of_attended run, after⟩

/-- The receive task may end before the closing hook is called: a caller has claimed the disconnect
and is stopped in front of the call, and the peer closes. -/
theorem exists_run_ended_uncalled :
    let handler := Server.reception ({} : Net.Settings).limits
    ∃ c, Run handler (start [] 64) [] c ∧ c.threads[0]? = some [] ∧ c.isConnected = false ∧
      c.callbacks.count .disconnected = 0 := by
  intro handler
  have called : Run handler (start [] 64) []
      { (start [] 64).spawn [.act .disconnect] with peerClosed := true } :=
    (Run.refl.caller .disconnect).peerCloses
  have moved : (({ (start [] 64).spawn [.act .disconnect] with peerClosed := true } :
      Connection _).steps? handler
        [(1, .plain), (0, .plain), (0, .plain), (0, .ended), (0, .plain)]).map
      (fun c => (c.threads[0]?, c.isConnected, c.callbacks.count .disconnected)) =
      some (some [], false, 0) := by
    decide +kernel
  obtain ⟨c, moves, after⟩ := Option.map_eq_some_iff.1 moved
  simp only [Prod.mk.injEq] at after
  exact ⟨c, called.steps moves, after⟩

end Connection

end ChatHall.Session
