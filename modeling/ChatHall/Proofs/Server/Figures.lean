/-
# The figures of a queue

A queue counts the jobs that are over, and those of them that failed. The figures change
with the last stage of a job and with nothing else: a job is counted as soon as it is over,
once, and what has been counted stays so.
-/

import ChatHall.Proofs.Server.Spare

namespace ChatHall

namespace Jobs.Queue

variable {J : Type}

theorem figures_fetch (q : Queue J) (i : Nat) :
    (q.fetch i).executed = q.executed ∧ (q.fetch i).failed = q.failed := by
  rw [Queue.fetch]
  split <;> exact ⟨rfl, rfl⟩

theorem figures_recheck (q : Queue J) (i : Nat) :
    (q.recheck i).executed = q.executed ∧ (q.recheck i).failed = q.failed := by
  rw [Queue.recheck]
  split <;> exact ⟨rfl, rfl⟩

end Jobs.Queue

namespace Server.World

variable {w v u : World} {past : List (RoomRef × RoomTask)} {q : Jobs.QueueRef} {i : Nat}
variable {d : Option ClientRef} {queue : Jobs.Queue Job} {job next : Job}

/-- The number of jobs of a queue that are over, whatever came of them. -/
def finished (w : World) (q : Jobs.QueueRef) : Nat :=
  ((w.pool.queue? q).map fun queue => queue.executed + queue.failed).getD 0

def failures (w : World) (q : Jobs.QueueRef) : Nat :=
  ((w.pool.queue? q).map Jobs.Queue.failed).getD 0

theorem finished_of_queue (found : w.pool.queue? q = some queue) :
    w.finished q = queue.executed + queue.failed := by
  rw [finished, found]
  rfl

theorem failures_of_queue (found : w.pool.queue? q = some queue) :
    w.failures q = queue.failed := by
  rw [failures, found]
  rfl

/-- A queue that is at most pushed to has the same figures. -/
theorem Spares.figures (h : Spares q d w v) (found : w.pool.queue? q = some queue) :
    v.finished q = w.finished q ∧ v.failures q = w.failures q := by
  obtain ⟨jobs, after⟩ := h.queue queue found
  obtain ⟨-, executed, failed⟩ := Jobs.Queue.foldl_push jobs queue
  rw [finished_of_queue after, failures_of_queue after, finished_of_queue found,
    failures_of_queue found, executed, failed]
  exact ⟨rfl, rfl⟩

/-- The job that it executes stays in the hands of its drain. -/
theorem Spares.phase? (h : Spares q d w v) (before : w.pool.Serial) (after : v.pool.Serial)
    (phase : Jobs.Realm.phase? w q i = some (.executing job)) :
    Jobs.Realm.phase? v q i = some (.executing job) := by
  obtain ⟨queue, found, alive⟩ := phase?_eq_some.1 phase
  obtain ⟨jobs, later⟩ := h.queue queue found
  have served := before q queue found
  have busy := (Jobs.Queue.foldl_push jobs queue).1.trans (served.executing_eq alive)
  obtain ⟨rfl, -⟩ := served.drains_eq alive
  exact phase?_eq_some.2 ⟨_, later, (after q _ later).alive_of_executing busy⟩

/-- The last stage of a job counts it. -/
theorem Spares.finish {outcome : Except Jobs.Failure Unit} (spares : Spares q d w u)
    (phase : Jobs.Realm.phase? w q i = some (.executing job))
    (performed : perform q job w = (u, .finished outcome))
    (after : Jobs.Realm.advance? perform w q i = some v) :
    v.finished q = w.finished q + 1 ∧ v.failures q = w.failures q + (!outcome.isOk).toNat := by
  obtain ⟨queue, found, -⟩ := phase?_eq_some.1 phase
  obtain ⟨jobs, between⟩ := spares.queue queue found
  obtain ⟨-, executed, failed⟩ := Jobs.Queue.foldl_push jobs queue
  obtain ⟨-, pool⟩ := eq_of_finished phase performed after
  have changed := Jobs.Pool.queue?_modify (p := u.pool) q q fun queue => queue.finish i outcome
  rw [if_pos rfl, between] at changed
  have later := (congrArg (·.queue? q) pool).trans changed
  rw [finished_of_queue later, failures_of_queue later, finished_of_queue found,
    failures_of_queue found, ← executed, ← failed]
  cases outcome with
  | ok _ => exact ⟨Nat.add_right_comm .., rfl⟩
  | error failure => exact ⟨rfl, rfl⟩

/-- A step of a drain that ends no job counts nothing. -/
theorem figures_modify (found : w.pool.queue? q = some queue) {f : Jobs.Queue Job → Jobs.Queue Job}
    (executed : (f queue).executed = queue.executed) (failed : (f queue).failed = queue.failed) :
    finished (w.updatePool (·.modify q f)) q = w.finished q ∧
      failures (w.updatePool (·.modify q f)) q = w.failures q := by
  have later := (queue?_updatePool found f q).trans (if_pos rfl)
  rw [finished_of_queue later, failures_of_queue later, finished_of_queue found,
    failures_of_queue found, executed, failed]
  exact ⟨rfl, rfl⟩

/-- A stage that another one follows counts nothing. -/
theorem Spares.goOn (spares : Spares q d w u)
    (phase : Jobs.Realm.phase? w q i = some (.executing job))
    (performed : perform q job w = (u, .continues next))
    (after : Jobs.Realm.advance? perform w q i = some v) :
    v.finished q = w.finished q ∧ v.failures q = w.failures q := by
  obtain ⟨queue, found, -⟩ := phase?_eq_some.1 phase
  obtain ⟨jobs, between⟩ := spares.queue queue found
  obtain ⟨finished, failures⟩ := spares.figures found
  obtain rfl := eq_of_continues phase performed after
  rw [← finished, ← failures]
  exact figures_modify between rfl rfl

/-- The drain has the next stage in its hands then. -/
theorem Spares.phase?_goOn (spares : Spares q d w u) (before : w.pool.Serial)
    (between : u.pool.Serial) (phase : Jobs.Realm.phase? w q i = some (.executing job))
    (performed : perform q job w = (u, .continues next))
    (after : Jobs.Realm.advance? perform w q i = some v) :
    Jobs.Realm.phase? v q i = some (.executing next) := by
  obtain ⟨now, known, alive⟩ := phase?_eq_some.1 (spares.phase? before between phase)
  obtain rfl := eq_of_continues phase performed after
  have later := (queue?_updatePool known (·.setPhase i (.executing next)) q).trans (if_pos rfl)
  exact phase?_eq_some.2 ⟨_, later, List.getElem?_set_self (List.getElem?_eq_some_iff.1 alive).1⟩

/-- What is over stays over. -/
theorem Tended.finished_le (h : Tended past w) {e : Event} (found : w.pool.queue? q = some queue)
    (after : w.after? e = some v) : w.finished q ≤ v.finished q := by
  by_cases own : ∃ i, e = .work q i
  · obtain ⟨i, rfl⟩ := own
    have step : Jobs.Realm.advance? perform w q i = some v := after
    cases advances_of_advance? step with
    | fetches _ =>
        obtain ⟨executed, failed⟩ := queue.figures_fetch i
        exact Nat.le_of_eq (figures_modify found (f := (·.fetch i)) executed failed).1.symm
    | rechecks _ =>
        obtain ⟨executed, failed⟩ := queue.figures_recheck i
        exact Nat.le_of_eq (figures_modify found (f := (·.recheck i)) executed failed).1.symm
    | @finishes job _ _ _ phase performed =>
        obtain ⟨d, -, spares⟩ := spares_perform (q := q) w q job
        rw [performed] at spares
        rw [(spares.finish phase performed step).1]
        exact Nat.le_succ _
    | @continues job _ _ phase performed =>
        obtain ⟨d, -, spares⟩ := spares_perform (q := q) w q job
        rw [performed] at spares
        exact Nat.le_of_eq (spares.goOn phase performed step).1.symm
  · obtain ⟨d, -, spares⟩ := h.spares (fun i same => own ⟨i, same⟩) after
    exact Nat.le_of_eq (spares.figures found).1.symm

end Server.World

end ChatHall
