/-
# What has begun comes to rest

A weight for all that is left to do: each step of a push and of a drain makes it smaller,
so only new pushes keep a workshop busy. A drain that looks again for jobs weighs more when
there are some, since then it goes back to fetching.
-/

import ChatHall.Proofs.Jobs.Growth
import Mathlib.Algebra.GroupWithZero.Nat

namespace ChatHall.Jobs

variable {J : Type}

/-- What a drain has still to do for the job in its hands, or to find out that there is none. -/
def Phase.toil (waiting : List J) : Phase J → Nat
  | fetching => 2
  | executing _ => 3
  | rechecking => if waiting.isEmpty then 1 else 3

namespace Queue

variable {q r : Queue J}

def toil (q : Queue J) : Nat :=
  2 * q.waiting.length + (q.drains.map (Phase.toil q.waiting)).sum

/-- A drain that is alive is the only one that has something to do. -/
theorem Serial.toil_eq (h : Serial q) {i : Nat} {phase : Phase J}
    (alive : q.drains[i]? = some phase) :
    q.toil = 2 * q.waiting.length + phase.toil q.waiting := by
  rw [toil, (h.drains_eq alive).2]
  rfl

theorem Serial.drains_setPhase (h : Serial q) {i : Nat} {phase : Phase J}
    (alive : q.drains[i]? = some phase) (next : Phase J) :
    (q.setPhase i next).drains = [next] := by
  obtain ⟨rfl, drains⟩ := h.drains_eq alive
  rw [Queue.setPhase, drains]
  rfl

/-- A drain that found nothing has to go on if a job comes now. -/
theorem Serial.toil_enqueue (h : Serial q) (job : J) : (q.enqueue job).toil ≤ q.toil + 4 := by
  cases drains : q.drains with
  | nil =>
      simp only [toil, Queue.enqueue, drains, List.length_append, List.length_singleton,
        List.map_nil, List.sum_nil]
      omega
  | cons phase others =>
      have alive : q.drains[0]? = some phase := by
        rw [drains]
        rfl
      have still : (q.enqueue job).drains[0]? = some phase := alive
      rw [h.toil_eq alive, (h.enqueue job).toil_eq still]
      simp only [Queue.enqueue, List.length_append, List.length_singleton]
      cases phase <;> simp only [Phase.toil] <;> grind

theorem toil_wake (q : Queue J) : q.wake.toil ≤ q.toil + 2 := by
  rw [wake]
  split
  · exact Nat.le_add_right ..
  · simp only [toil, List.map_append, List.sum_append]
    exact Nat.le_refl _

theorem Serial.toil_fetch (h : Serial q) {i : Nat} (alive : q.drains[i]? = some .fetching) :
    (q.fetch i).toil < q.toil := by
  rw [h.toil_eq alive, Queue.fetch]
  cases waiting : q.waiting with
  | nil =>
      rw [toil, h.drains_setPhase alive]
      simp [Queue.setPhase, waiting, Phase.toil]
  | cons job later =>
      rw [toil, h.drains_setPhase alive]
      simp [Phase.toil]
      omega

theorem Serial.toil_finish (h : Serial q) {i : Nat} {job : J}
    (alive : q.drains[i]? = some (.executing job)) (outcome : Except Failure Unit) :
    (q.finish i outcome).toil < q.toil := by
  have drains := h.drains_setPhase alive .fetching
  rw [h.toil_eq alive]
  cases outcome <;>
  · simp only [toil, Queue.finish, drains]
    exact Nat.lt_succ_self _

theorem Serial.toil_recheck (h : Serial q) {i : Nat} (alive : q.drains[i]? = some .rechecking) :
    (q.recheck i).toil < q.toil := by
  rw [h.toil_eq alive, Queue.recheck]
  cases waiting : q.waiting with
  | nil =>
      obtain ⟨rfl, drains⟩ := h.drains_eq alive
      simp [toil, drains, Phase.toil]
  | cons job later =>
      rw [toil, h.drains_setPhase alive]
      simp [Queue.setPhase, waiting, Phase.toil]

end Queue

/-- What a push has still to do, the job that it enqueues included. -/
def Push.toil (p : Push J) : Nat := if p.isEnqueued then 3 else 8

theorem sum_toil_modify {queues : List (Queue J)} {q : QueueRef} {queue : Queue J}
    (found : queues[q]? = some queue) (f : Queue J → Queue J) :
    ((queues.modify q f).map Queue.toil).sum + queue.toil =
      (queues.map Queue.toil).sum + (f queue).toil := by
  induction queues generalizing q with
  | nil => contradiction
  | cons first others ih =>
      cases q with
      | zero =>
          obtain rfl := Option.some.inj found
          simp only [List.modify_zero_cons, List.map_cons, List.sum_cons]
          omega
      | succ q =>
          have rest := ih (q := q) found
          simp only [List.modify_succ_cons, List.map_cons, List.sum_cons]
          omega

namespace Workshop

variable {w w' : Workshop J} {q : QueueRef}

def toil (w : Workshop J) : Nat :=
  (w.queues.map Queue.toil).sum + (w.pushes.map Push.toil).sum

theorem toil_begin (known : q < w.queues.length) (parcel : Parcel J) :
    (w.begin q parcel).toil = w.toil + 8 := by
  have same : ((w.queues.modify q Queue.count).map Queue.toil).sum + w.queues[q].toil =
      (w.queues.map Queue.toil).sum + w.queues[q].toil :=
    sum_toil_modify (List.getElem?_eq_getElem known) Queue.count
  simp only [toil, begin, onQueue, List.map_append, List.sum_append, Nat.add_right_cancel same]
  rfl

theorem toil_onQueue_lt {f : Queue (Parcel J) → Queue (Parcel J)} {queue : Queue (Parcel J)}
    (found : w.queues[q]? = some queue) (less : (f queue).toil < queue.toil)
    (e : Queue.Event (Parcel J)) : (w.onQueue q f e).toil < w.toil := by
  have changed := sum_toil_modify found f
  simp only [toil, onQueue]
  omega

/-- What has begun gets less with every step that is not a new push. -/
theorem Sound.toil_lt (sound : Sound w) (housed : Housed w) (step : Step w w')
    (calls : w'.calls = w.calls) : w'.toil < w.toil := by
  have serial {q : QueueRef} {queue : Queue (Parcel J)} (found : w.queues[q]? = some queue) :
      queue.Serial := by
    obtain ⟨name, run⟩ := sound.runs q queue found
    exact run.accounted.serial
  cases step with
  | call => exact absurd (congrArg List.length calls) (by simp [Workshop.begin])
  | callInside => exact absurd (congrArg List.length calls) (by simp [Workshop.begin])
  | enqueue earlier later target parcel underWay =>
      have known := housed.pushes_lt _ (underWay ▸ List.mem_append_cons_self)
      have found := List.getElem?_eq_getElem known
      have more := (serial found).toil_enqueue parcel
      have changed := sum_toil_modify found (·.enqueue parcel)
      simp only [toil, onQueue, underWay, List.map_append, List.sum_append, List.map_cons,
        List.sum_cons, Push.toil]
      grind
  | wake earlier later target parcel underWay =>
      have known := housed.pushes_lt _ (underWay ▸ List.mem_append_cons_self)
      have found := List.getElem?_eq_getElem known
      have more := Queue.toil_wake w.queues[target]
      have changed := sum_toil_modify found Queue.wake
      simp only [toil, onQueue, underWay, List.map_append, List.sum_append, List.map_cons,
        List.sum_cons, Push.toil]
      grind
  | start q i queue parcel later found phase =>
      exact toil_onQueue_lt found ((serial found).toil_fetch phase) _
  | findNone q i queue found phase =>
      exact toil_onQueue_lt found ((serial found).toil_fetch phase) _
  | finish q i queue parcel outcome found executes =>
      exact toil_onQueue_lt found ((serial found).toil_finish executes outcome) _
  | recheck q i queue found phase =>
      exact toil_onQueue_lt found ((serial found).toil_recheck phase) _

end Workshop

end ChatHall.Jobs
