/-
# The order of the hooks

A session calls its opening hook once, then the hook for bytes any number of times, and
its closing hook at most once. Where the closing hook comes in is up to whoever
disconnects: the receive loop is told to stop but not stopped, and may not even have
begun. The closing hook is the last one for sure only if the loop is over before anybody
disconnects.
-/

import ChatHall.Proofs.Session.Sending

namespace ChatHall.Session

/-- The hooks that tell of the life of a session. -/
inductive Callback
  | connected
  | received
  | disconnected
  deriving Repr, DecidableEq

def Notice.callback? : Notice → Option Callback
  | called .connected => some .connected
  | called .disconnected => some .disconnected
  | received .. => some .received
  | _ => none

namespace Operation

def callback? : Operation → Option Callback
  | call .connected => some .connected
  | call .disconnected => some .disconnected
  | deliver => some .received
  | _ => none

/-- Whether an operation is one of the receive loop, or the hook before it. -/
def isReceiving : Operation → Bool
  | call .connected => true
  | o => o.isLoop

/-- Whether an operation is no reason for a hook to be called. -/
def isQuiet (o : Operation) : Bool := !o.isReceiving && o != .call .disconnected

theorem isReceiving_of_isLoop {o : Operation} (isLoop : o.isLoop = true) : o.isReceiving = true := by
  cases o with
  | call h => contradiction
  | _ => exact isLoop

end Operation

/-- Calls as they should be: of the opening hook, of the one for bytes, of the closing one. -/
def InTurn (calls : List Callback) : Prop :=
  ∃ n, calls <+: .connected :: (List.replicate n .received ++ [.disconnected])

namespace Connection

variable {σ : Type} {handler : Handler σ} {c d e : Connection σ} {o : Operation} {choice : Choice}
variable {first : List Operation} {sent : Bytes}

def callbacks (c : Connection σ) : List Callback := c.notices.filterMap Notice.callback?

/-- What the receive task has still to do, on whatever thread. -/
def receiving (c : Connection σ) : List Operation := c.threads.flatten.filter Operation.isReceiving

/-- What an operation has to do with the hooks. -/
structure Goes (c : Connection σ) (o : Operation) (result : Connection σ × List Operation) :
    Prop where
  threads : ∃ more, result.1.threads = c.threads ++ more ∧ ∀ p ∈ more.flatten, p.isQuiet = true
  callbacks : result.1.callbacks = c.callbacks ++ o.callback?.toList
  /-- The receive task goes on, or is over. -/
  next : result.2.filter Operation.isReceiving = [] ∨ o.isLoop = true ∧
    ∃ next : Operation, next.isLoop = true ∧ result.2.filter Operation.isReceiving = [next]
  /-- Who disconnects first calls the closing hook. -/
  farewell : result.2.count (.call .disconnected) + result.1.isConnected.toNat =
    c.isConnected.toNat

theorem callbacks_note (c : Connection σ) (n : Notice) :
    (c.note n).callbacks = c.callbacks ++ n.callback?.toList := by
  rw [callbacks, note, List.filterMap_append, callbacks]
  cases called : n.callback? with
  | none => rw [List.filterMap_cons_none called]; rfl
  | some call => rw [List.filterMap_cons_some called]; rfl

theorem filter_isReceiving_of_isQuiet {ops : List Operation} (quiet : ∀ p ∈ ops, p.isQuiet = true) :
    ops.filter Operation.isReceiving = [] := by
  refine List.filter_eq_nil_iff.2 fun p mem receiving => ?_
  have quiet := quiet p mem
  rw [Operation.isQuiet, receiving] at quiet
  contradiction

theorem count_disconnected_of_isQuiet {ops : List Operation}
    (quiet : ∀ p ∈ ops, p.isQuiet = true) : ops.count (.call .disconnected) = 0 := by
  rw [List.count_eq_zero]
  intro mem
  have quiet := quiet _ mem
  contradiction

theorem goes_spawn (more : List (List Operation)) (threads : d.threads = c.threads ++ more)
    (quiet : ∀ p ∈ more.flatten, p.isQuiet = true)
    (callbacks : d.callbacks = c.callbacks ++ o.callback?.toList)
    (connected : d.isConnected = c.isConnected) (after : ∀ p ∈ first, p.isQuiet = true) :
    Goes c o (d, first) where
  threads := ⟨more, threads, quiet⟩
  callbacks := callbacks
  next := .inl (filter_isReceiving_of_isQuiet after)
  farewell := by
    rw [count_disconnected_of_isQuiet after, Nat.zero_add]
    exact congrArg Bool.toNat connected

theorem goes_quiet (threads : d.threads = c.threads)
    (callbacks : d.callbacks = c.callbacks ++ o.callback?.toList)
    (connected : d.isConnected = c.isConnected) (after : ∀ p ∈ first, p.isQuiet = true) :
    Goes c o (d, first) :=
  goes_spawn [] (threads.trans (List.append_nil _).symm) (fun _ mem => nomatch mem) callbacks
    connected after

theorem goes_loop (acts : List Operation) (next : Operation) (isLoop : o.isLoop = true)
    (threads : d.threads = c.threads) (callbacks : d.callbacks = c.callbacks ++ o.callback?.toList)
    (connected : d.isConnected = c.isConnected) (quiet : ∀ p ∈ acts, p.isQuiet = true)
    (goesOn : next.isLoop = true) : Goes c o (d, acts ++ [next]) where
  threads := ⟨[], threads.trans (List.append_nil _).symm, fun _ mem => nomatch mem⟩
  callbacks := callbacks
  next := by
    refine .inr ⟨isLoop, next, goesOn, ?_⟩
    rw [List.filter_append, filter_isReceiving_of_isQuiet quiet,
      List.filter_cons_of_pos (Operation.isReceiving_of_isLoop goesOn)]
    rfl
  farewell := by
    have other : next ≠ .call .disconnected := by
      rintro rfl
      contradiction
    rw [List.count_append, count_disconnected_of_isQuiet quiet, List.count_singleton,
      if_neg (ne_true_of_eq_false (beq_false_of_ne other)), Nat.zero_add]
    exact congrArg Bool.toNat connected

theorem isQuiet_acts (actions : List Action) :
    ∀ p ∈ actions.map Operation.act, p.isQuiet = true := by
  intro p mem
  obtain ⟨a, -, rfl⟩ := List.mem_map.1 mem
  rfl

theorem goes_act (c : Connection σ) (a : Action) : Goes c (.act a) (c.act a) := by
  have nothing : ∀ p ∈ ([] : List Operation), p.isQuiet = true := fun _ mem =>
    absurd mem List.not_mem_nil
  cases a with
  | send segment =>
      rw [act]
      split
      · exact goes_quiet rfl (callbacks_note c _) rfl nothing
      · split
        · exact goes_quiet rfl (callbacks_note c _) rfl nothing
        · exact goes_quiet rfl (List.append_nil _).symm rfl
            fun p mem => List.mem_singleton.1 mem ▸ rfl
  | sendMany segments =>
      rw [act]
      split
      · exact goes_quiet rfl (callbacks_note c _) rfl nothing
      · exact goes_quiet rfl (List.append_nil _).symm rfl
          fun p mem => List.mem_singleton.1 mem ▸ rfl
  | disconnect =>
      rw [act]
      split
      · next connected =>
          exact {
            threads := ⟨[], (List.append_nil _).symm, fun _ mem => absurd mem List.not_mem_nil⟩
            callbacks := (List.append_nil _).symm
            next := .inl rfl
            farewell := by
              rw [connected]
              rfl }
      · exact goes_quiet rfl (List.append_nil _).symm rfl nothing

theorem goes_enqueue (c : Connection σ) (segments : List Bytes) :
    Goes c (.enqueue segments) (c.enqueue segments, []) := by
  have nothing : ∀ p ∈ ([] : List Operation), p.isQuiet = true := fun _ mem => nomatch mem
  have noted := callbacks_note { c with sendQueue := c.sendQueue ++ segments } (.accepted segments)
  rw [enqueue]
  split
  · exact goes_spawn [[.lock, .collect]] rfl (by decide) noted rfl nothing
  · exact goes_quiet rfl noted rfl nothing

theorem goes_call (c : Connection σ) (h : Hook) : Goes c (.call h) (c.call handler h) := by
  have after : ∀ p ∈ (c.call handler h).2, p.isQuiet = true := by
    intro p mem
    rw [call.eq_def] at mem
    rcases List.mem_append.1 mem with acts | complains
    · exact isQuiet_acts _ p acts
    · split at complains
      · rw [List.mem_singleton.1 complains]
        rfl
      · contradiction
  have noted := callbacks_note c (.called h)
  cases h with
  | connected => exact goes_quiet rfl noted rfl after
  | sent n => exact goes_quiet rfl noted rfl after
  | disconnected => exact goes_quiet rfl noted rfl after

theorem goes_endLoop (c : Connection σ) (silent : o.callback? = none) (e : Ending) :
    Goes c o (c.endLoop e) := by
  have callbacks : (c.endLoop e).1.callbacks = c.callbacks ++ o.callback?.toList := by
    rw [silent, endLoop]
    split
    · exact (List.append_nil _).symm
    · exact (List.append_nil _).symm
  have connected : (c.endLoop e).1.isConnected = c.isConnected := by
    rw [endLoop]
    split <;> rfl
  have asks : ∀ p ∈ [Operation.act .disconnect], p.isQuiet = true := by decide
  exact goes_quiet (threads_endLoop c e) callbacks connected asks

/-- Every operation has to do with the hooks as it should. -/
theorem Performs.goes {result : Connection σ × List Operation}
    (performs : Performs handler c o result) : Goes c o result := by
  have nothing : ∀ p ∈ ([] : List Operation), p.isQuiet = true := fun _ mem => nomatch mem
  have silent : c.callbacks = c.callbacks ++ [] := (List.append_nil _).symm
  cases performs with
  | act a => exact goes_act c a
  | enqueue segments => exact goes_enqueue c segments
  | call h => exact goes_call c h
  | startClosing =>
      exact goes_spawn [[.lock, .takeWriter, .unlock, .clearQueue]] rfl (by decide) silent rfl
        nothing
  | prepare => exact goes_loop [] .await rfl rfl silent rfl nothing rfl
  | read => exact goes_loop [] .deliver rfl rfl silent rfl nothing rfl
  | judge => exact goes_loop [] .prepare rfl rfl silent rfl nothing rfl
  | deliver =>
      exact goes_loop _ (.judge _) rfl rfl (callbacks_note c _) rfl (isQuiet_acts _) rfl
  | choke e | condemn verdict e => exact goes_endLoop c rfl e
  | refuse n e =>
      have ended := goes_endLoop (o := .await) { c with inbox := c.inbox.drop n } rfl e
      exact ⟨ended.threads, ended.callbacks, ended.next, ended.farewell⟩
  | collect | begin | write | written =>
      exact goes_quiet rfl silent rfl fun p mem => List.mem_singleton.1 mem ▸ rfl
  | complete n =>
      have told : Operation.isQuiet (.call (.sent n)) = true := rfl
      exact goes_quiet rfl silent rfl (List.forall_mem_cons.2 ⟨told, by decide⟩)
  | quit | retire | miss | interrupted | failed => exact goes_quiet rfl silent rfl (by decide)
  | _ => exact goes_quiet rfl silent rfl nothing

/-! ## Runs -/

/-- The calls but those of the closing hook. -/
def served (c : Connection σ) : List Callback := c.callbacks.filter (· != .disconnected)

/-- The receive task has not begun. -/
def Fresh (c : Connection σ) : Prop :=
  c.served = [] ∧ ∃ others, c.threads = [.call .connected, .prepare] :: others ∧
    others.flatten.filter Operation.isReceiving = []

/-- The receive task is in its loop, or over. -/
structure Serving (c : Connection σ) : Prop where
  single : c.receiving.length ≤ 1
  looping : ∀ o ∈ c.receiving, o.isLoop = true
  served : ∃ n, c.served = .connected :: List.replicate n .received

/-- What is sure of the calls whenever the closing hook comes in. -/
structure Calls (c : Connection σ) : Prop where
  /-- Who disconnects calls the closing hook. -/
  farewell : c.threads.flatten.count (.call .disconnected) + c.callbacks.count .disconnected +
    c.isConnected.toNat = 1
  receiving : Fresh c ∨ Serving c

theorem count_callback (o : Operation) :
    [o].count (.call .disconnected) = o.callback?.toList.count .disconnected := by
  cases o with
  | call h =>
      cases h with
      | _ => rfl
  | _ => rfl

/-- Only the receive task calls any hook but the closing one. -/
theorem filter_callback_of_isReceiving (other : o.isReceiving = false) :
    o.callback?.toList.filter (· != .disconnected) = [] := by
  cases o with
  | call h =>
      cases h with
      | connected => contradiction
      | _ => rfl
  | deliver => contradiction
  | _ => rfl

/-- The loop calls the hook for bytes. -/
theorem filter_callback_of_isLoop (isLoop : o.isLoop = true) :
    ∃ n, o.callback?.toList.filter (· != .disconnected) = List.replicate n .received := by
  cases o with
  | deliver => exact ⟨1, rfl⟩
  | prepare | await | judge => exact ⟨0, rfl⟩
  | _ => contradiction

section Thread

variable {before after more : List (List Operation)} {rest : List Operation}

theorem served_of_callbacks (called : d.callbacks = c.callbacks ++ o.callback?.toList) :
    d.served = c.served ++ o.callback?.toList.filter (· != .disconnected) := by
  rw [served, called, List.filter_append, served]

/-- What the receive task has to do once a thread has gone on. -/
theorem receiving_of_threads (was : c.threads = before ++ (o :: rest) :: after)
    (now : d.threads = before ++ (first ++ rest) :: (after ++ more))
    (idle : more.flatten.filter Operation.isReceiving = []) :
    ∃ earlier later, c.receiving = earlier ++ [o].filter Operation.isReceiving ++ later ∧
      d.receiving = earlier ++ first.filter Operation.isReceiving ++ later := by
  obtain ⟨ops, left⟩ := flatten_threads was now
  refine ⟨before.flatten.filter Operation.isReceiving,
    (rest ++ after.flatten).filter Operation.isReceiving, ?_, ?_⟩
  · rw [receiving, ops, ← List.singleton_append, ← List.append_assoc, List.filter_append,
      List.filter_append]
  · rw [receiving, left, List.filter_append, idle, List.append_nil, List.filter_append,
      List.filter_append]

/-- The receive task calls its first hook, or another thread goes on. -/
theorem Fresh.go (fresh : Fresh c) (goes : Goes c o (e, first))
    (was : c.threads = before ++ (o :: rest) :: after)
    (now : d.threads = before ++ (first ++ rest) :: (after ++ more))
    (idleMore : more.flatten.filter Operation.isReceiving = [])
    (called : d.callbacks = c.callbacks ++ o.callback?.toList) : Fresh d ∨ Serving d := by
  obtain ⟨unserved, others, threads, idle⟩ := fresh
  have served := served_of_callbacks called
  rw [unserved, List.nil_append] at served
  cases before with
  | nil =>
      right
      obtain ⟨⟨rfl, rfl⟩, rfl⟩ : (o = .call .connected ∧ rest = [.prepare]) ∧ after = others := by
        simpa using was.symm.trans threads
      have idleFirst : first.filter Operation.isReceiving = [] :=
        goes.next.resolve_right fun loop => Bool.noConfusion loop.1
      have next : d.receiving = [.prepare] := by
        rw [receiving, now, List.nil_append, List.flatten_cons, List.flatten_append]
        simp only [List.filter_append, idleFirst, idle, idleMore]
        rfl
      refine ⟨?_, ?_, 0, served⟩
      · rw [next]
        exact Nat.le_refl 1
      · rw [next]
        decide
  | cons task before =>
      left
      obtain ⟨rfl, rfl⟩ : task = [.call .connected, .prepare] ∧
          others = before ++ (o :: rest) :: after := by
        simpa [eq_comm] using was.symm.trans threads
      rw [List.flatten_append, List.flatten_cons, List.filter_append, List.append_eq_nil_iff,
        List.cons_append] at idle
      obtain ⟨idleBefore, idleAfter⟩ := idle
      have other : o.isReceiving = false :=
        eq_false_of_ne_true (List.filter_eq_nil_iff.1 idleAfter o List.mem_cons_self)
      rw [List.filter_cons_of_neg (ne_true_of_eq_false other), List.filter_append] at idleAfter
      have idleFirst : first.filter Operation.isReceiving = [] := by
        refine goes.next.resolve_right fun loop => ?_
        exact Bool.noConfusion (other.symm.trans (Operation.isReceiving_of_isLoop loop.1))
      refine ⟨served.trans (filter_callback_of_isReceiving other),
        before ++ (first ++ rest) :: (after ++ more), now, ?_⟩
      rw [List.flatten_append, List.flatten_cons, List.flatten_append]
      simp only [List.filter_append, idleBefore, idleFirst, idleMore, List.nil_append,
        List.append_nil]
      exact idleAfter

/-- The receive task goes on in its loop, or another thread goes on. -/
theorem Serving.go (serving : Serving c) (goes : Goes c o (e, first))
    (was : c.threads = before ++ (o :: rest) :: after)
    (now : d.threads = before ++ (first ++ rest) :: (after ++ more))
    (idleMore : more.flatten.filter Operation.isReceiving = [])
    (called : d.callbacks = c.callbacks ++ o.callback?.toList) : Serving d := by
  obtain ⟨single, looping, n, served⟩ := serving
  have servedNow := served_of_callbacks called
  obtain ⟨earlier, later, were, are⟩ := receiving_of_threads was now idleMore
  cases kind : o.isReceiving with
  | false =>
      have idleFirst : first.filter Operation.isReceiving = [] := by
        refine goes.next.resolve_right fun loop => ?_
        exact Bool.noConfusion (kind.symm.trans (Operation.isReceiving_of_isLoop loop.1))
      have same : d.receiving = c.receiving := by
        rw [are, were, idleFirst, List.filter_cons_of_neg (ne_true_of_eq_false kind)]
        rfl
      rw [filter_callback_of_isReceiving kind, List.append_nil] at servedNow
      exact ⟨same ▸ single, same ▸ looping, n, servedNow.trans served⟩
  | true =>
      rw [List.filter_cons_of_pos kind, List.filter_nil] at were
      have isLoop := looping o (by rw [were]; simp)
      have alone := single
      rw [were, List.length_append, List.length_append, List.length_singleton] at alone
      have none_earlier : earlier = [] := List.eq_nil_of_length_eq_zero (by omega)
      have none_later : later = [] := List.eq_nil_of_length_eq_zero (by omega)
      rw [none_earlier, none_later, List.append_nil, List.nil_append] at are
      have goesOn : d.receiving.length ≤ 1 ∧ ∀ p ∈ d.receiving, p.isLoop = true := by
        rcases goes.next with stops | ⟨-, next, loops, one⟩
        · rw [are, stops]
          exact ⟨Nat.zero_le 1, fun _ mem => nomatch mem⟩
        · rw [are, one]
          exact ⟨Nat.le_refl 1, fun p mem => List.mem_singleton.1 mem ▸ loops⟩
      obtain ⟨more, received⟩ := filter_callback_of_isLoop isLoop
      refine ⟨goesOn.1, goesOn.2, n + more, ?_⟩
      rw [servedNow, served, received, List.cons_append, List.replicate_append_replicate]

end Thread

theorem Calls.step? {i : Nat} (calls : Calls c) (moves : c.step? handler i choice = some d) :
    Calls d := by
  obtain ⟨before, o, rest, after, e, first, was, performed, same⟩ := step?_cases moves
  have goes := (performs_of_perform? performed).goes
  obtain ⟨more, spawned, quiet⟩ := goes.threads
  have now : d.threads = before ++ (first ++ rest) :: (after ++ more) := by
    rw [same]
    exact set_threads was spawned
  have called : d.callbacks = c.callbacks ++ o.callback?.toList := by
    rw [same]
    exact goes.callbacks
  have idleMore := filter_isReceiving_of_isQuiet quiet
  constructor
  · obtain ⟨ops, left⟩ := flatten_threads was now
    have farewell := calls.farewell
    have counted := count_callback o
    have nothing := count_disconnected_of_isQuiet quiet
    have claimed : first.count (.call .disconnected) + d.isConnected.toNat =
        c.isConnected.toNat := by
      rw [same]
      exact goes.farewell
    rw [ops, ← List.singleton_append] at farewell
    rw [left, called]
    simp only [List.count_append] at farewell ⊢
    omega
  · rcases calls.receiving with fresh | serving
    · exact fresh.go goes was now idleMore called
    · exact .inr (serving.go goes was now idleMore called)

theorem Calls.spawn (calls : Calls c) (a : Action) : Calls (c.spawn [.act a]) where
  farewell := by
    rw [Connection.spawn, List.flatten_append, List.count_append]
    exact calls.farewell
  receiving := by
    have same : (c.spawn [.act a]).receiving = c.receiving := by
      rw [Connection.receiving, Connection.spawn, List.flatten_append, List.filter_append]
      exact List.append_nil _
    rcases calls.receiving with ⟨unserved, others, threads, idle⟩ | serving
    · refine .inl ⟨unserved, others ++ [[.act a]], ?_, ?_⟩
      · rw [Connection.spawn, threads]
        rfl
      · rw [List.flatten_append, List.filter_append, idle]
        rfl
    · exact .inr ⟨same ▸ serving.single, same ▸ serving.looping, serving.served⟩

theorem Calls.step (calls : Calls c) (step : Step handler c d) : Calls d := by
  cases step with
  | thread _ i choice moves => exact calls.step? moves
  | caller a => exact calls.spawn a
  | peerSends data h | peerCloses =>
      exact ⟨calls.farewell, calls.receiving.imp id fun s => ⟨s.single, s.looping, s.served⟩⟩

theorem calls_start (s : σ) (size : Nat) : Calls (start s size) :=
  ⟨rfl, .inl ⟨rfl, [], rfl, rfl⟩⟩

/-- However a run goes, the closing hook is called once at most, and the others in their order. -/
theorem calls_of_run {s : σ} {size : Nat} (run : Run handler (start s size) sent c) : Calls c := by
  induction run with
  | refl => exact calls_start s size
  | thread run i choice moves ih => exact ih.step? moves
  | caller run a ih => exact ih.spawn a
  | @peerSends sent d run data h ih =>
      have step : Step handler d { d with inbox := d.inbox ++ data } := .peerSends d data h
      exact ih.step step
  | @peerCloses sent d run ih =>
      have step : Step handler d { d with peerClosed := true } := .peerCloses d
      exact ih.step step

/-! ## Runs in which the loop is over first -/

/-- A run in which nobody disconnects before the receive loop is over. -/
inductive Patient (handler : Handler σ) (c : Connection σ) : Connection σ → Prop
  | refl : Patient handler c c
  | step {d e : Connection σ} (run : Patient handler c d) (next : Step handler d e)
      (patient : e.isConnected = false → e.looping = []) : Patient handler c e

/-- Only operations call hooks. -/
theorem callbacks_of_step (step : Step handler c d) :
    d.callbacks = c.callbacks ∨
      ∃ o ∈ c.threads.flatten, d.callbacks = c.callbacks ++ o.callback?.toList := by
  cases step with
  | thread _ i choice moves =>
      obtain ⟨before, o, rest, after, e, first, was, performed, rfl⟩ := step?_cases moves
      refine .inr ⟨o, ?_, (performs_of_perform? performed).goes.callbacks⟩
      rw [was, List.flatten_append, List.flatten_cons]
      exact List.mem_append_right _ (List.mem_append_left _ List.mem_cons_self)
  | caller a => exact .inl rfl
  | peerSends data h => exact .inl rfl
  | peerCloses => exact .inl rfl

/-- When the loop is over, the hooks before the closing one have been called. -/
theorem Calls.finished (calls : Calls c) (finished : c.looping = []) :
    Serving c ∧ ∀ o ∈ c.threads.flatten, o.isReceiving = false := by
  have ended := List.filter_eq_nil_iff.1 finished
  rcases calls.receiving with ⟨-, others, threads, -⟩ | serving
  · have waiting : .prepare ∈ c.threads.flatten := by
      rw [threads]
      exact List.mem_cons_of_mem _ List.mem_cons_self
    exact absurd rfl (ended _ waiting)
  · refine ⟨serving, fun o mem => eq_false_of_ne_true fun receiving => ended o mem ?_⟩
    exact serving.looping o (List.mem_filter.2 ⟨mem, receiving⟩)

theorem Calls.gone (calls : Calls c) (called : .disconnected ∈ c.callbacks) :
    c.isConnected = false := by
  have counted := List.count_pos_iff.2 called
  have farewell := calls.farewell
  cases connected : c.isConnected with
  | false => rfl
  | true =>
      rw [connected, Bool.toNat_true] at farewell
      omega

/-- The closing hook is the last one. -/
structure Closing (c : Connection σ) : Prop where
  calls : Calls c
  patient : c.isConnected = false → c.looping = []
  last : c.callbacks = c.served ∨ c.callbacks = c.served ++ [.disconnected]

theorem Closing.step (closing : Closing c) (step : Step handler c d)
    (patient : d.isConnected = false → d.looping = []) : Closing d := by
  have calls := closing.calls.step step
  refine ⟨calls, patient, ?_⟩
  rcases callbacks_of_step step with same | ⟨o, mem, called⟩
  · rw [served, same]
    exact closing.last
  have served := served_of_callbacks called
  cases kind : o.callback? with
  | none =>
      rw [kind] at called served
      rw [called, served]
      simpa using closing.last
  | some call =>
      rw [kind] at called served
      rcases closing.last with open_ | closed
      · rw [called, served, open_]
        cases call with
        | disconnected => exact .inr (congrArg (· ++ _) (List.append_nil _).symm)
        | connected => exact .inl rfl
        | received => exact .inl rfl
      · -- The loop is over, and the closing hook has had its one call.
        have before : .disconnected ∈ c.callbacks := by
          rw [closed]
          exact List.mem_append_right _ List.mem_cons_self
        have finished := closing.patient (closing.calls.gone before)
        have silent := filter_callback_of_isReceiving ((closing.calls.finished finished).2 o mem)
        rw [kind] at silent
        cases call with
        | disconnected =>
            have once := List.count_pos_iff.2 before
            have farewell := calls.farewell
            rw [called, List.count_append] at farewell
            have again : (some Callback.disconnected).toList.count .disconnected = 1 := rfl
            omega
        | connected => contradiction
        | received => contradiction

theorem closing_of_patient {s : σ} {size : Nat} (run : Patient handler (start s size) c) :
    Closing c := by
  induction run with
  | refl => exact ⟨calls_start s size, fun gone => Bool.noConfusion gone, .inl rfl⟩
  | step run next patient ih => exact ih.step next patient

/-- If nobody disconnects before the receive loop is over, the hooks are called as they should
be. -/
theorem inTurn_of_patient {s : σ} {size : Nat} (run : Patient handler (start s size) c) :
    InTurn c.callbacks := by
  obtain ⟨calls, patient, last⟩ := closing_of_patient run
  rcases last with open_ | closed
  · rw [open_]
    rcases calls.receiving with ⟨unserved, -⟩ | ⟨-, -, n, served⟩
    · exact ⟨0, unserved ▸ List.nil_prefix⟩
    · refine ⟨n, ?_⟩
      rw [served, ← List.cons_append]
      exact List.prefix_append _ _
  · have called : .disconnected ∈ c.callbacks := by
      rw [closed]
      exact List.mem_append_right _ List.mem_cons_self
    obtain ⟨n, served⟩ := (calls.finished (patient (calls.gone called))).1.served
    refine ⟨n, ?_⟩
    rw [closed, served]
    exact List.prefix_rfl

/-- The connection after some steps of threads, if all can be done and are patient. -/
def patientSteps? (handler : Handler σ) (c : Connection σ) (moves : List (Nat × Choice)) :
    Option (Connection σ) :=
  moves.foldlM (fun c move =>
    (c.step? handler move.1 move.2).filter fun d => d.isConnected || d.looping.isEmpty) c

theorem Patient.steps {moves : List (Nat × Choice)} (run : Patient handler c d)
    (moved : d.patientSteps? handler moves = some e) : Patient handler c e := by
  induction moves generalizing d with
  | nil =>
      obtain rfl := Option.some.inj moved
      exact run
  | cons move later ih =>
      rw [patientSteps?, List.foldlM_cons] at moved
      obtain ⟨mid, first, rest⟩ := Option.bind_eq_some_iff.1 moved
      obtain ⟨first, patient⟩ := Option.filter_eq_some_iff.1 first
      refine ih (run.step (.thread d mid move.1 move.2 first) fun gone => ?_) rest
      rw [gone, Bool.false_or, List.isEmpty_iff] at patient
      exact patient

/-- The peer sends a little and closes, and the loop sees to the rest. -/
def farewellMoves : List (Nat × Choice) :=
  [(0, .plain), (0, .plain), (0, .moved 2), (0, .plain), (0, .plain), (0, .plain), (0, .ended),
    (0, .plain), (0, .plain)]

theorem inTurn_of_patient_farewellMoves :
    let handler := Server.reception ({} : Net.Settings).limits
    ∃ c, Patient handler (start [] 64) c ∧ InTurn c.callbacks ∧
      c.callbacks = [.connected, .received, .disconnected] := by
  intro handler
  have sent : Patient handler (start [] 64) { start [] 64 with inbox := [1, 2] } :=
    Patient.refl.step (.peerSends _ [1, 2] rfl) fun gone => Bool.noConfusion gone
  have moved : (({ start [] 64 with inbox := [1, 2] } : Connection _).patientSteps? handler
      farewellMoves).map callbacks = some [.connected, .received, .disconnected] := by
    decide +kernel
  obtain ⟨c, moves, called⟩ := Option.map_eq_some_iff.1 moved
  have run := sent.steps moves
  exact ⟨c, run, inTurn_of_patient run, called⟩

/-- The closing hook may be called before the opening one, and bytes may be handed over after it:
a caller disconnects before the receive task has begun, or while bytes are ready to be read. -/
theorem exists_run_not_inTurn :
    let handler := Server.reception ({} : Net.Settings).limits
    (∃ c, Run handler (start [] 64) [] c ∧ c.callbacks = [.disconnected, .connected] ∧
      ¬ InTurn c.callbacks) ∧
    ∃ c, Run handler (start [] 64) [1] c ∧
      c.callbacks = [.connected, .disconnected, .received] ∧ ¬ InTurn c.callbacks := by
  intro handler
  constructor
  · have called : Run handler (start [] 64) [] ((start [] 64).spawn [.act .disconnect]) :=
      Run.refl.caller .disconnect
    have moved : (((start [] 64).spawn [.act .disconnect]).steps? handler
        [(1, .plain), (1, .plain), (0, .plain)]).map callbacks =
        some [.disconnected, .connected] := by
      decide +kernel
    obtain ⟨c, moves, called'⟩ := Option.map_eq_some_iff.1 moved
    refine ⟨c, called.steps moves, called', ?_⟩
    rw [called']
    rintro ⟨n, first⟩
    exact Callback.noConfusion (List.cons_prefix_cons.1 first).1
  · have sent : Run handler (start [] 64) [1]
        { (start [] 64).spawn [.act .disconnect] with inbox := [1] } :=
      (Run.refl.caller .disconnect).peerSends [1] rfl
    have moved : (({ (start [] 64).spawn [.act .disconnect] with inbox := [1] } :
        Connection _).steps? handler [(0, .plain), (0, .plain), (1, .plain), (1, .plain),
          (1, .plain), (0, .moved 1), (0, .plain)]).map callbacks =
        some [.connected, .disconnected, .received] := by
      decide +kernel
    obtain ⟨c, moves, called⟩ := Option.map_eq_some_iff.1 moved
    refine ⟨c, sent.steps moves, called, ?_⟩
    rw [called]
    rintro ⟨n, first⟩
    have rest := (List.cons_prefix_cons.1 first).2
    cases n with
    | zero => exact absurd rest (by decide)
    | succ n => exact Callback.noConfusion (List.cons_prefix_cons.1 rest).1

end Connection

end ChatHall.Session
