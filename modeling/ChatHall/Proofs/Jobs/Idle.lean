/-
# Every job is counted once, and an idle queue is idle

What a queue counts are the steps that it shows: a push when it begins, a job when it
comes to its end, as done or as failed. So the figures add up at every moment. Whoever
waits for a queue reads them one after the other, while others go on, so that the
figures read need not belong to any one moment. The order of the reads makes up for it:
a job that was on the queue before the first read is among the pushes seen, jobs end in
the order in which they came, and the ends seen are not more than there are.
-/

import ChatHall.Proofs.Jobs.Growth
import Mathlib.Data.List.Perm.Basic

namespace ChatHall.Jobs

/-! ## The figures of a queue -/

namespace Queue

variable {J : Type} {q r : Queue J} {seen : List (Event J)} {e : Event J}

def succeededIn (events : List (Event J)) : List J :=
  events.filterMap fun
    | .finished job (.ok _) => some job
    | _ => none

def failedIn (events : List (Event J)) : List J :=
  events.filterMap fun
    | .finished job (.error _) => some job
    | _ => none

def countedIn (events : List (Event J)) : Nat :=
  events.countP fun
    | .counted => true
    | _ => false

/-- Each job that ends does so well or not. -/
theorem finishedIn_perm (events : List (Event J)) :
    (finishedIn events).Perm (succeededIn events ++ failedIn events) := by
  induction events with
  | nil => exact .nil
  | cons e later ih =>
      cases e with
      | finished job outcome =>
          cases outcome with
          | ok => exact ih.cons job
          | error => exact (ih.cons job).trans List.perm_middle.symm
      | _ => exact ih

@[simp]
theorem enqueuedIn_append (events later : List (Event J)) :
    enqueuedIn (events ++ later) = enqueuedIn events ++ enqueuedIn later := List.filterMap_append

@[simp]
theorem succeededIn_append (events later : List (Event J)) :
    succeededIn (events ++ later) = succeededIn events ++ succeededIn later :=
  List.filterMap_append

@[simp]
theorem failedIn_append (events later : List (Event J)) :
    failedIn (events ++ later) = failedIn events ++ failedIn later := List.filterMap_append

@[simp]
theorem countedIn_append (events later : List (Event J)) :
    countedIn (events ++ later) = countedIn events + countedIn later := List.countP_append

/-- The figures of a queue are those of what was seen of it. -/
structure Tallied (seen : List (Event J)) (q : Queue J) : Prop where
  pushed_eq : q.pushed = countedIn seen
  counting_eq : q.counting + (enqueuedIn seen).length = countedIn seen
  executed_eq : q.executed = (succeededIn seen).length
  failed_eq : q.failed = (failedIn seen).length

/-- Figures that grow by what a step shows. -/
theorem Tallied.append (h : Tallied seen q) (pushed : r.pushed = q.pushed + countedIn [e])
    (counting : r.counting + (enqueuedIn [e]).length = q.counting + countedIn [e])
    (executed : r.executed = q.executed + (succeededIn [e]).length)
    (failed : r.failed = q.failed + (failedIn [e]).length) : Tallied (seen ++ [e]) r where
  pushed_eq := by rw [pushed, h.pushed_eq, countedIn_append]
  counting_eq := by
    have before := h.counting_eq
    rw [countedIn_append, enqueuedIn_append, List.length_append]
    omega
  executed_eq := by rw [executed, h.executed_eq, succeededIn_append, List.length_append]
  failed_eq := by rw [failed, h.failed_eq, failedIn_append, List.length_append]

/-- Every step of a producer or a drain is counted as it is seen. -/
theorem Tallied.step (h : Tallied seen q) (step : Step q e r) : Tallied (seen ++ [e]) r := by
  cases step with
  | count => exact h.append rfl rfl rfl rfl
  | enqueue job counted => exact h.append rfl (Nat.sub_add_cancel counted) rfl rfl
  | wake =>
      rw [wake]
      split <;> exact h.append rfl rfl rfl rfl
  | start i =>
      rw [fetch]
      split <;> exact h.append rfl rfl rfl rfl
  | findNone i =>
      rw [fetch]
      split <;> exact h.append rfl rfl rfl rfl
  | finish i job outcome => cases outcome <;> exact h.append rfl rfl rfl rfl
  | recheck i =>
      rw [recheck]
      split <;> exact h.append rfl rfl rfl rfl

theorem Run.tallied {name : String} (run : Run { name } seen q) : Tallied seen q := by
  generalize hstart : ({ name } : Queue J) = start at run
  induction run with
  | refl =>
      subst hstart
      exact ⟨rfl, rfl, rfl, rfl⟩
  | step _ last ih => exact ih.step last

/-- Each job whose push has begun is in one place: done, failed, waiting, executed, or
in the hands of a producer. -/
theorem Run.pushed_eq {name : String} (run : Run { name } seen q) :
    q.pushed = q.executed + q.failed + q.size + q.executing.length + q.counting := by
  obtain ⟨pushed, counting, executed, failed⟩ := run.tallied
  obtain ⟨-, enqueued, started⟩ := run.accounted
  have ends := (finishedIn_perm seen).length_eq
  have begun := congrArg List.length enqueued
  have taken := congrArg List.length started
  rw [List.length_append] at ends begun taken
  rw [size]
  omega

end Queue

/-! ## Somebody who waits -/

/-- Somebody who wants to know whether a queue is idle, beside a workshop at work. -/
structure Vigil (J : Type) where
  workshop : Workshop J
  probe : Probe := .start

namespace Vigil

variable {J : Type} {v v' : Vigil J} {q : QueueRef}

/-- The work goes on, the next figure is read, or all of them are read again. -/
inductive Step (q : QueueRef) : Vigil J → Vigil J → Prop
  | work (v : Vigil J) (w : Workshop J) (step : Workshop.Step v.workshop w) :
      Step q v { v with workshop := w }
  | look (v : Vigil J) (queue : Queue (Parcel J)) (found : v.workshop.queues[q]? = some queue) :
      Step q v { v with probe := v.probe.read queue }
  | again (v : Vigil J) (refused : v.probe = .answered false) :
      Step q v { v with probe := .start }

inductive Run (q : QueueRef) : Vigil J → Vigil J → Prop
  | refl (v : Vigil J) : Run q v v
  | step {u v v' : Vigil J} (run : Run q u v) (last : Step q v v') : Run q u v'

variable {before : List (Parcel J)}
  {events later : List (Queue.Event (Parcel J))} {probe : Probe}

/-- What the figures read so far say of the jobs that were there in the beginning: the pushes
seen cover them, and no more ends are seen than there have been. -/
def Covers (before : List (Parcel J)) (events : List (Queue.Event (Parcel J))) : Probe → Prop
  | .start => True
  | .sawPushed pushed => before.length ≤ pushed
  | .sawExecuted pushed executed =>
      before.length ≤ pushed ∧ executed ≤ (Queue.succeededIn events).length
  | .sawFailed pushed executed failed =>
      before.length ≤ pushed ∧ executed ≤ (Queue.succeededIn events).length ∧
        failed ≤ (Queue.failedIn events).length
  | .answered idle => idle = true → before.length ≤ (Queue.finishedIn events).length

/-- What has been read stays true while the work goes on. -/
theorem Covers.mono (h : Covers before events probe) (more : events <+: later) :
    Covers before later probe := by
  have succeeded : (Queue.succeededIn events).length ≤ (Queue.succeededIn later).length :=
    (more.filterMap _).length_le
  have failed : (Queue.failedIn events).length ≤ (Queue.failedIn later).length :=
    (more.filterMap _).length_le
  have finished : (Queue.finishedIn events).length ≤ (Queue.finishedIn later).length :=
    (more.filterMap _).length_le
  cases probe with
  | start => exact h
  | sawPushed => exact h
  | sawExecuted => exact ⟨h.1, Nat.le_trans h.2 succeeded⟩
  | sawFailed => exact ⟨h.1, Nat.le_trans h.2.1 succeeded, Nat.le_trans h.2.2 failed⟩
  | answered => exact fun idle => Nat.le_trans (h idle) finished

/-- The next figure says what it should, whatever has happened since the one before. -/
theorem Covers.read {queue : Queue (Parcel J)} (h : Covers before events probe)
    (there : before <+: Queue.enqueuedIn events) (tallied : Queue.Tallied events queue) :
    Covers before events (probe.read queue) := by
  obtain ⟨pushed, counting, executed, failed⟩ := tallied
  cases probe with
  | start =>
      have known := there.length_le
      show before.length ≤ queue.pushed
      omega
  | sawPushed => exact ⟨h, Nat.le_of_eq executed⟩
  | sawExecuted => exact ⟨h.1, h.2, Nat.le_of_eq failed⟩
  | sawFailed sawPushed sawExecuted sawFailed =>
      intro idle
      obtain ⟨known, ended, wrong⟩ := h
      have ends := (Queue.finishedIn_perm events).length_eq
      rw [List.length_append] at ends
      simp only [Bool.and_eq_true, decide_eq_true_eq] at idle
      omega
  | answered => exact h

/-- A workshop that is sound, with the jobs that were there in the beginning and a reader whom
the figures have told the truth. -/
structure Watched (q : QueueRef) (before : List (Parcel J)) (v : Vigil J) : Prop where
  sound : v.workshop.Sound
  known : q < v.workshop.queues.length
  there : before <+: Queue.enqueuedIn (v.workshop.eventsOn q)
  covers : Covers before (v.workshop.eventsOn q) v.probe

theorem Watched.step (h : Watched q before v) (step : Step q v v') : Watched q before v' := by
  cases step with
  | work w step =>
      have more := step.eventsOn_prefix q
      have known := Nat.lt_of_lt_of_eq h.known step.length_queues.symm
      exact ⟨h.sound.step step, known, h.there.trans (more.filterMap _), h.covers.mono more⟩
  | look queue found =>
      obtain ⟨name, run⟩ := h.sound.runs q queue found
      exact ⟨h.sound, h.known, h.there, h.covers.read h.there run.tallied⟩
  | again refused => exact ⟨h.sound, h.known, h.there, trivial⟩

theorem Watched.run (h : Watched q before v) (run : Run q v v') : Watched q before v' := by
  induction run with
  | refl => exact h
  | step _ last ih => exact ih.step last

/-- Jobs end in the order in which they came, so those that were there in the beginning are
the first that ended. -/
theorem Watched.finished (h : Watched q before v) (idle : v.probe = .answered true) :
    before <+: Queue.finishedIn (v.workshop.eventsOn q) := by
  obtain ⟨name, run⟩ := h.sound.runs q _ (List.getElem?_eq_getElem h.known)
  obtain ⟨-, enqueued, started⟩ := run.accounted
  have covers := h.covers
  rw [idle] at covers
  rw [started, List.append_assoc] at enqueued
  exact List.prefix_of_prefix_length_le h.there ⟨_, enqueued.symm⟩ (covers rfl)

end Vigil

namespace Workshop

variable {J : Type}

/-- However many producers there are, in whatever order they and the drains take their steps,
and whatever comes of the jobs: a queue has counted as many pushes as there are jobs that it has
counted as done or as failed, jobs that wait, jobs that are executed and producers who have
still to enqueue; each job that was enqueued waits, is executed, or has ended, and then it is
counted once, as done or as failed. And if somebody who reads the figures one after the other,
while all others go on, finds the queue idle, then all jobs that were on it before the first
read have ended, those of every push that had returned among them. -/
theorem run_start_tallied {names : List String} {plans : List (List (QueueRef × J))}
    {w : Workshop J} (run : Run (start names plans) w) {q : QueueRef} {queue : Queue (Parcel J)}
    (found : w.queues[q]? = some queue) :
    (queue.pushed = queue.executed + queue.failed + queue.size + queue.executing.length +
        w.pushes.countP (Push.isAt q false) ∧
      queue.executing.length ≤ 1) ∧
    (queue.executed = (Queue.succeededIn (w.eventsOn q)).length ∧
      queue.failed = (Queue.failedIn (w.eventsOn q)).length ∧
      (Queue.finishedIn (w.eventsOn q)).Perm
        (Queue.succeededIn (w.eventsOn q) ++ Queue.failedIn (w.eventsOn q))) ∧
    (Queue.enqueuedIn (w.eventsOn q) =
        Queue.finishedIn (w.eventsOn q) ++ queue.executing ++ queue.waiting ∧
      ∀ s, w.callsTo s q = ((Queue.enqueuedIn (w.eventsOn q)).filter (·.source = s)).map
        Parcel.job ++ announced w.pushes s q) ∧
    ∀ v, Vigil.Run q { workshop := w } v → v.probe = .answered true →
      Queue.enqueuedIn (w.eventsOn q) <+: Queue.finishedIn (v.workshop.eventsOn q) ∧
      ∀ s, w.callsTo s q = w.returned s q ++ w.underWay s q ∧
        w.returned s q <+:
          ((Queue.finishedIn (v.workshop.eventsOn q)).filter (·.source = s)).map Parcel.job := by
  have sound := run.sound (sound_start names plans)
  have recalled := run.recalled (recalled_start names plans)
  obtain ⟨name, queueRun⟩ := sound.runs q queue found
  have tallied := queueRun.tallied
  obtain ⟨serial, enqueued, started⟩ := queueRun.accounted
  refine ⟨⟨?_, ?_⟩, ⟨tallied.executed_eq, tallied.failed_eq, Queue.finishedIn_perm _⟩,
    ⟨?_, fun s => sound.calls_eq s q⟩, ?_⟩
  · rw [← sound.counting_eq q queue found]
    exact queueRun.pushed_eq
  · exact Nat.le_trans (List.length_filterMap_le _ _) serial.drains_le_one
  · rw [enqueued, started]
  · intro v waited idle
    have watched : Vigil.Watched q (Queue.enqueuedIn (w.eventsOn q)) { workshop := w } :=
      ⟨sound, (List.getElem?_eq_some_iff.1 found).1, List.prefix_refl _, trivial⟩
    have ended := (watched.run waited).finished idle
    refine ⟨ended, fun s => ⟨callsTo_eq_returned_append sound recalled s q, ?_⟩⟩
    exact (returned_prefix_arrivals sound recalled s q).trans ((ended.filter _).map _)

/-- The figures that are read belong to no one moment: the second job is counted between the
reads and waits when the answer comes, yet the answer is right about the first one. -/
theorem run_start_tallied_torn :
    ∃ (w : Workshop Nat) (v : Vigil Nat), Run (start ["a"] [[(0, 1)], [(0, 2)]]) w ∧
      Vigil.Run 0 { workshop := w } v ∧ v.probe = .answered true ∧
      (v.workshop.queues[0]?.map Queue.waiting) = some [⟨.outside 1, 2⟩] ∧
      [1] <+: (Queue.finishedIn (v.workshop.eventsOn 0)).map Parcel.job := by
  have free {w : Workshop Nat} {s : Source} (h : w.pushes.all (·.parcel.source ≠ s) = true) :
      w.IsFree s := by
    simpa [IsFree] using h
  have run := (Run.refl (start (J := Nat) ["a"] [[(0, 1)], [(0, 2)]]))
    |>.step (.call _ 0 0 1 [] rfl (by decide) (free rfl))
    |>.step (.enqueue _ [] [] 0 ⟨.outside 0, 1⟩ rfl)
    |>.step (.wake _ [] [] 0 ⟨.outside 0, 1⟩ rfl)
  have arrive {w : Workshop Nat} (_ : Run (start ["a"] [[(0, 1)], [(0, 2)]]) w) :
      Vigil.Run 0 { workshop := w } { workshop := w } := .refl _
  have waited := (arrive run)
    |>.step (.look _ _ rfl)
    |>.step (.work _ _ (.start _ 0 0 _ ⟨.outside 0, 1⟩ [] rfl rfl rfl))
    |>.step (.work _ _ (.finish _ 0 0 _ ⟨.outside 0, 1⟩ (.ok ()) rfl rfl (free rfl)))
    |>.step (.look _ _ rfl)
    |>.step (.work _ _ (.call _ 1 0 2 [] rfl (by decide) (free rfl)))
    |>.step (.work _ _ (.findNone _ 0 0 _ rfl rfl rfl))
    |>.step (.look _ _ rfl)
    |>.step (.work _ _ (.recheck _ 0 0 _ rfl rfl))
    |>.step (.work _ _ (.enqueue _ [] [] 0 ⟨.outside 1, 2⟩ rfl))
    |>.step (.look _ _ rfl)
  refine ⟨_, _, run, waited, rfl, rfl, ?_⟩
  exact ((run_start_tallied run rfl).2.2.2 _ waited rfl).1.map Parcel.job

end Workshop

end ChatHall.Jobs
