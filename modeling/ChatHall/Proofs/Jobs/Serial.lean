/-
# A queue is serial

The invariant of a queue: the flag says whether a drain is alive, no two drains
are, and a job that waits has a drain or a producer who has still to look at the
flag. Each operation keeps it, so every run does. From it follows that the
jobs are started in the order in which they were enqueued and that each is
finished before the next one is started.
-/

import ChatHall.Jobs.Queue
import Mathlib.Tactic.Common

namespace ChatHall.Jobs

/-- The job that a drain has in its hands. -/
def Phase.job? {J : Type} : Phase J → Option J
  | executing job => some job
  | _ => none

namespace Queue

variable {J : Type} {q r : Queue J}

/-! ## The invariant -/

/-- At most one drain is alive, the flag tells, and nobody sleeps over a waiting job. -/
structure Serial (q : Queue J) : Prop where
  running_iff : q.running = true ↔ q.drains ≠ []
  drains_le_one : q.drains.length ≤ 1
  awake : q.waiting ≠ [] → q.drains ≠ [] ∨ 0 < q.waking

theorem serial_new (name : String) : Serial ({ name } : Queue J) where
  running_iff := by simp
  drains_le_one := by simp
  awake := by simp

/-- A drain that is alive is the only one. -/
theorem Serial.drains_eq (h : Serial q) {i : Nat} {phase : Phase J}
    (alive : q.drains[i]? = some phase) : i = 0 ∧ q.drains = [phase] := by
  have hle := h.drains_le_one
  obtain ⟨hi, hphase⟩ := List.getElem?_eq_some_iff.1 alive
  have hzero : i = 0 := by omega
  subst hzero
  obtain ⟨p, hp⟩ := List.length_eq_one_iff.1 (show q.drains.length = 1 by omega)
  refine ⟨rfl, ?_⟩
  simpa [hp] using hphase

/-! ## Producers -/

theorem Serial.count (h : Serial q) : Serial q.count := ⟨h.running_iff, h.drains_le_one, h.awake⟩

theorem Serial.enqueue (h : Serial q) (job : J) : Serial (q.enqueue job) where
  running_iff := h.running_iff
  drains_le_one := h.drains_le_one
  awake _ := .inr (Nat.succ_pos _)

theorem Serial.wake (h : Serial q) : Serial q.wake := by
  rw [Queue.wake]
  split
  · next running =>
      have alive := h.running_iff.1 running
      exact ⟨h.running_iff, h.drains_le_one, fun _ => .inl alive⟩
  · next asleep =>
      have none_alive : q.drains = [] := by
        by_contra alive
        exact asleep (h.running_iff.2 alive)
      exact {
        running_iff := by simp
        drains_le_one := by simp [none_alive]
        awake := fun _ => .inl (by simp) }

theorem Serial.push (h : Serial q) (job : J) : Serial (q.push job) := (h.count.enqueue job).wake

/-! ## Drains -/

theorem Serial.setPhase (h : Serial q) (i : Nat) (phase : Phase J) : Serial (q.setPhase i phase) where
  running_iff := by simpa [Queue.setPhase] using h.running_iff
  drains_le_one := by simpa [Queue.setPhase] using h.drains_le_one
  awake waiting := by simpa [Queue.setPhase] using h.awake waiting

theorem Serial.fetch (h : Serial q) (i : Nat) {phase : Phase J}
    (alive : q.drains[i]? = some phase) : Serial (q.fetch i) := by
  have next := h.setPhase i
  obtain ⟨-, hdrains⟩ := h.drains_eq alive
  rw [Queue.fetch]
  split
  · exact next _
  · next job later _ =>
      exact {
        running_iff := (next (.executing job)).running_iff
        drains_le_one := (next (.executing job)).drains_le_one
        awake := fun _ => .inl (by simp [Queue.setPhase, hdrains]) }

theorem Serial.finish (h : Serial q) (i : Nat) (outcome : Except Failure Unit) :
    Serial (q.finish i outcome) := by
  have next := h.setPhase i .fetching
  cases outcome <;> exact ⟨next.running_iff, next.drains_le_one, next.awake⟩

theorem Serial.recheck (h : Serial q) (i : Nat) {phase : Phase J}
    (alive : q.drains[i]? = some phase) : Serial (q.recheck i) := by
  obtain ⟨rfl, hdrains⟩ := h.drains_eq alive
  rw [Queue.recheck]
  split
  · next empty =>
      exact {
        running_iff := by simp [hdrains]
        drains_le_one := by simp [hdrains]
        awake := fun waiting => absurd empty waiting }
  · exact h.setPhase 0 .fetching

/-- Every step of a producer or a drain keeps a queue serial. -/
theorem Serial.step (h : Serial q) {e : Event J} (step : Step q e r) : Serial r := by
  cases step with
  | count => exact h.count
  | enqueue job _ => exact h.enqueue job
  | wake _ => exact h.wake
  | start i job later phase _ => exact h.fetch i phase
  | findNone i phase _ => exact h.fetch i phase
  | finish i job outcome phase => exact h.finish i outcome
  | recheck i phase => exact h.recheck i phase

/-! ## The jobs of a queue -/

def executing (q : Queue J) : List J := q.drains.filterMap Phase.job?

/-- The jobs that have been enqueued and not finished, oldest first. -/
def outstanding (q : Queue J) : List J := q.executing ++ q.waiting

@[simp]
theorem waiting_count : q.count.waiting = q.waiting := rfl

@[simp]
theorem executing_count : q.count.executing = q.executing := rfl

@[simp]
theorem waiting_enqueue (job : J) : (q.enqueue job).waiting = q.waiting ++ [job] := rfl

@[simp]
theorem executing_enqueue (job : J) : (q.enqueue job).executing = q.executing := rfl

@[simp]
theorem waiting_wake : q.wake.waiting = q.waiting := by
  rw [Queue.wake]
  split <;> rfl

/-- A drain that starts has no job yet. -/
@[simp]
theorem executing_wake : q.wake.executing = q.executing := by
  rw [Queue.wake]
  split
  · rfl
  · simp [executing, Phase.job?]

@[simp]
theorem waiting_push (job : J) : (q.push job).waiting = q.waiting ++ [job] := by
  rw [Queue.push, waiting_wake, waiting_enqueue, waiting_count]

@[simp]
theorem executing_push (job : J) : (q.push job).executing = q.executing := by
  rw [Queue.push, executing_wake, executing_enqueue, executing_count]

@[simp]
theorem outstanding_push (job : J) : (q.push job).outstanding = q.outstanding ++ [job] := by
  rw [outstanding, executing_push, waiting_push, ← List.append_assoc]
  rfl

/-- The drain that is alive has what is executed in its hands. -/
theorem Serial.executing_eq (h : Serial q) {i : Nat} {phase : Phase J}
    (alive : q.drains[i]? = some phase) : q.executing = phase.job?.toList := by
  obtain ⟨-, hdrains⟩ := h.drains_eq alive
  rw [executing, hdrains]
  cases phase <;> rfl

theorem Serial.executing_setPhase (h : Serial q) {i : Nat} {phase : Phase J}
    (alive : q.drains[i]? = some phase) (next : Phase J) :
    (q.setPhase i next).executing = next.job?.toList := by
  obtain ⟨rfl, hdrains⟩ := h.drains_eq alive
  rw [executing, Queue.setPhase, hdrains]
  cases next <;> rfl

/-- What is executed is in the hands of the first drain. -/
theorem Serial.alive_of_executing (h : Serial q) {job : J} (busy : q.executing = [job]) :
    q.drains[0]? = some (.executing job) := by
  cases hdrains : q.drains with
  | nil =>
      rw [executing, hdrains] at busy
      contradiction
  | cons phase later =>
      have alive : q.drains[0]? = some phase := by
        rw [hdrains]
        rfl
      rw [h.executing_eq alive] at busy
      cases phase with
      | executing job' => rw [← List.singleton_inj.1 busy, List.getElem?_cons_zero]
      | _ => contradiction

/-- A fetch puts the oldest waiting job into the hands of the drain. -/
theorem Serial.fetch_cons (h : Serial q) {i : Nat} (alive : q.drains[i]? = some .fetching)
    {job : J} {later : List J} (waiting : q.waiting = job :: later) :
    (q.fetch i).executing = [job] ∧ (q.fetch i).waiting = later := by
  have taken := h.executing_setPhase alive (.executing job)
  rw [Queue.fetch, waiting]
  exact ⟨taken, rfl⟩

theorem Serial.fetch_nil (h : Serial q) {i : Nat} (alive : q.drains[i]? = some .fetching)
    (waiting : q.waiting = []) : (q.fetch i).executing = [] ∧ (q.fetch i).waiting = [] := by
  have idle := h.executing_setPhase alive .rechecking
  rw [Queue.fetch, waiting]
  exact ⟨idle, waiting⟩

/-- A fetch neither loses nor reorders jobs. -/
theorem Serial.outstanding_fetch (h : Serial q) {i : Nat}
    (alive : q.drains[i]? = some .fetching) : (q.fetch i).outstanding = q.outstanding := by
  rw [outstanding, outstanding, h.executing_eq alive]
  cases waiting : q.waiting with
  | nil =>
      obtain ⟨hexecuting, hwaiting⟩ := h.fetch_nil alive waiting
      rw [hexecuting, hwaiting]
      rfl
  | cons job later =>
      obtain ⟨hexecuting, hwaiting⟩ := h.fetch_cons alive waiting
      rw [hexecuting, hwaiting]
      rfl

theorem Serial.finish_eq (h : Serial q) {i : Nat} {job : J}
    (alive : q.drains[i]? = some (.executing job)) (outcome : Except Failure Unit) :
    (q.finish i outcome).executing = [] ∧ (q.finish i outcome).waiting = q.waiting := by
  have idle := h.executing_setPhase alive .fetching
  cases outcome <;> exact ⟨idle, rfl⟩

/-- A finished job is the oldest one, and the others stay. -/
theorem Serial.outstanding_finish (h : Serial q) {i : Nat} {job : J}
    (alive : q.drains[i]? = some (.executing job)) (outcome : Except Failure Unit) :
    q.outstanding = job :: (q.finish i outcome).outstanding := by
  obtain ⟨hexecuting, hwaiting⟩ := h.finish_eq alive outcome
  rw [outstanding, outstanding, h.executing_eq alive, hexecuting, hwaiting]
  rfl

theorem Serial.recheck_eq (h : Serial q) {i : Nat} (alive : q.drains[i]? = some .rechecking) :
    (q.recheck i).executing = [] ∧ (q.recheck i).waiting = q.waiting := by
  have idle := h.executing_setPhase alive .fetching
  obtain ⟨rfl, hdrains⟩ := h.drains_eq alive
  rw [Queue.recheck]
  split
  · next empty => exact ⟨by simp [executing, hdrains], rfl⟩
  · exact ⟨idle, rfl⟩

theorem Serial.outstanding_recheck (h : Serial q) {i : Nat}
    (alive : q.drains[i]? = some .rechecking) : (q.recheck i).outstanding = q.outstanding := by
  obtain ⟨hexecuting, hwaiting⟩ := h.recheck_eq alive
  rw [outstanding, outstanding, hexecuting, hwaiting, h.executing_eq alive]
  rfl

/-- Without a drain or a producer about to look at the flag nothing is left to do. -/
theorem Serial.outstanding_eq_nil (h : Serial q) (idle : q.drains = []) (looked : q.waking = 0) :
    q.outstanding = [] := by
  have waiting : q.waiting = [] := by
    by_contra some_waiting
    rcases h.awake some_waiting with alive | waking
    · exact alive idle
    · omega
  rw [outstanding, executing, idle, waiting]
  rfl

/-! ## The producers that a queue knows of -/

@[simp]
theorem counting_wake : q.wake.counting = q.counting := by
  rw [Queue.wake]
  split <;> rfl

@[simp]
theorem waking_wake : q.wake.waking = q.waking - 1 := by
  rw [Queue.wake]
  split <;> rfl

theorem counters_fetch (q : Queue J) (i : Nat) :
    (q.fetch i).counting = q.counting ∧ (q.fetch i).waking = q.waking := by
  rw [Queue.fetch]
  split <;> exact ⟨rfl, rfl⟩

theorem counters_finish (q : Queue J) (i : Nat) (outcome : Except Failure Unit) :
    (q.finish i outcome).counting = q.counting ∧ (q.finish i outcome).waking = q.waking := by
  cases outcome <;> exact ⟨rfl, rfl⟩

theorem counters_recheck (q : Queue J) (i : Nat) :
    (q.recheck i).counting = q.counting ∧ (q.recheck i).waking = q.waking := by
  rw [Queue.recheck]
  split <;> exact ⟨rfl, rfl⟩

/-! ## What a run shows -/

def enqueuedIn (events : List (Event J)) : List J :=
  events.filterMap fun
    | .enqueued job => some job
    | _ => none

def startedIn (events : List (Event J)) : List J :=
  events.filterMap fun
    | .started job => some job
    | _ => none

/-- The jobs that were finished, whatever came of them, in order. -/
def finishedIn (events : List (Event J)) : List J :=
  events.filterMap fun
    | .finished job _ => some job
    | _ => none

/-- A queue that accounts for what was seen of it. -/
structure Accounted (seen : List (Event J)) (q : Queue J) : Prop where
  serial : Serial q
  enqueued_eq : enqueuedIn seen = startedIn seen ++ q.waiting
  started_eq : startedIn seen = finishedIn seen ++ q.executing

theorem Accounted.step {seen : List (Event J)} (h : Accounted seen q) {e : Event J}
    (step : Step q e r) : Accounted (seen ++ [e]) r := by
  obtain ⟨serial, henqueued, hstarted⟩ := h
  refine ⟨serial.step step, ?_, ?_⟩
  all_goals
    simp only [enqueuedIn, startedIn, finishedIn, List.filterMap_append] at henqueued hstarted ⊢
  · cases step with
    | count => simpa using henqueued
    | enqueue job _ => simp [henqueued]
    | wake _ => simpa using henqueued
    | start i job later phase waiting =>
        simp [henqueued, (serial.fetch_cons phase waiting).2, waiting]
    | findNone i phase waiting => simp [henqueued, (serial.fetch_nil phase waiting).2, waiting]
    | finish i job outcome phase => simpa [(serial.finish_eq phase outcome).2] using henqueued
    | recheck i phase => simpa [(serial.recheck_eq phase).2] using henqueued
  · cases step with
    | count => simpa using hstarted
    | enqueue job _ => simpa using hstarted
    | wake _ => simpa using hstarted
    | start i job later phase waiting =>
        simp [hstarted, (serial.fetch_cons phase waiting).1, serial.executing_eq phase, Phase.job?]
    | findNone i phase waiting =>
        simp [hstarted, (serial.fetch_nil phase waiting).1, serial.executing_eq phase, Phase.job?]
    | finish i job outcome phase =>
        simp [hstarted, (serial.finish_eq phase outcome).1, serial.executing_eq phase, Phase.job?]
    | recheck i phase =>
        simp [hstarted, (serial.recheck_eq phase).1, serial.executing_eq phase, Phase.job?]

/-- Every run of a new queue is accounted for. -/
theorem Run.accounted {name : String} {seen : List (Event J)} (run : Run { name } seen q) :
    Accounted seen q := by
  generalize hstart : ({ name } : Queue J) = start at run
  induction run with
  | refl =>
      subst hstart
      exact ⟨serial_new name, rfl, rfl⟩
  | step _ last ih => exact ih.step last

end Queue

end ChatHall.Jobs
