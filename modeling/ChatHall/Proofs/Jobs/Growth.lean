/-
# What grows in a workshop and what stays

What a queue has shown is not taken back, and a queue keeps the name that it was made
with. A queue that is made while others are at work starts with nothing seen of it and no
push under way to it, so it is sound from the beginning and the others do not notice.
-/

import ChatHall.Proofs.Jobs.Pool
import ChatHall.Proofs.Jobs.Returned

namespace ChatHall.Jobs

@[simp]
theorem Queue.name_wake {J : Type} (q : Queue J) : q.wake.name = q.name := by
  rw [Queue.wake]
  split <;> rfl

namespace Workshop

variable {J : Type} {w w' : Workshop J} {q : QueueRef}

/-- What has been seen is not taken back. -/
theorem Step.eventsOn_prefix (step : Step w w') (q : QueueRef) :
    w.eventsOn q <+: w'.eventsOn q := by
  have events : w.events <+: w'.events := by cases step <;> exact List.prefix_append ..
  exact events.filterMap _

/-! ## Names -/

theorem names_modify (queues : List (Queue (Parcel J))) (q : QueueRef)
    {f : Queue (Parcel J) → Queue (Parcel J)} (keeps : ∀ queue, (f queue).name = queue.name) :
    (queues.modify q f).map Queue.name = queues.map Queue.name := by
  refine List.ext_getElem? fun k => ?_
  rw [List.getElem?_map, List.getElem?_map, getElem?_modify_eq]
  split
  · rw [Option.map_map]
    exact congrFun (congrArg Option.map (funext keeps)) _
  · rfl

/-- No step renames a queue. -/
theorem Step.names_eq (step : Step w w') :
    w'.queues.map Queue.name = w.queues.map Queue.name := by
  cases step with
  | call n q => exact names_modify w.queues q fun _ => rfl
  | callInside q i queue parcel target => exact names_modify w.queues target fun _ => rfl
  | enqueue earlier later target => exact names_modify w.queues target fun _ => rfl
  | wake earlier later target => exact names_modify w.queues target Queue.name_wake
  | start q i => exact names_modify w.queues q fun _ => Queue.name_fetch i
  | findNone q i => exact names_modify w.queues q fun _ => Queue.name_fetch i
  | finish q i queue parcel outcome =>
      exact names_modify w.queues q fun _ => Queue.name_finish i outcome
  | recheck q i => exact names_modify w.queues q fun _ => Queue.name_recheck i

theorem Step.length_queues (step : Step w w') : w'.queues.length = w.queues.length := by
  simpa using congrArg List.length step.names_eq

/-! ## New queues -/

/-- All that was seen and all that is under way belongs to queues that there are. -/
structure Housed (w : Workshop J) : Prop where
  events_lt : ∀ e ∈ w.events, e.1 < w.queues.length
  pushes_lt : ∀ p ∈ w.pushes, p.target < w.queues.length

theorem Housed.begin (h : Housed w) (known : q < w.queues.length) (parcel : Parcel J) :
    Housed (w.begin q parcel) := by
  constructor
  all_goals
    intro x mem
    rw [Workshop.begin, Workshop.onQueue, List.length_modify]
    rcases List.mem_append.1 mem with old | new
  · exact h.events_lt x old
  · exact List.mem_singleton.1 new ▸ known
  · exact h.pushes_lt x old
  · exact List.mem_singleton.1 new ▸ known

/-- What a step shows belongs to a queue that there is. -/
theorem Step.events_eq (step : Step w w') (h : Housed w) :
    ∃ q e, q < w.queues.length ∧ w'.events = w.events ++ [(q, e)] := by
  have exists_lt {q : QueueRef} {queue : Queue (Parcel J)} (found : w.queues[q]? = some queue) :
      q < w.queues.length := (List.getElem?_eq_some_iff.1 found).1
  cases step with
  | call n q job later planned known => exact ⟨q, _, known, rfl⟩
  | callInside q i queue parcel target job found executes known => exact ⟨target, _, known, rfl⟩
  | enqueue earlier later target parcel underWay =>
      exact ⟨target, _, h.pushes_lt _ (underWay ▸ List.mem_append_cons_self), rfl⟩
  | wake earlier later target parcel underWay =>
      exact ⟨target, _, h.pushes_lt _ (underWay ▸ List.mem_append_cons_self), rfl⟩
  | start q i queue parcel later found => exact ⟨q, _, exists_lt found, rfl⟩
  | findNone q i queue found => exact ⟨q, _, exists_lt found, rfl⟩
  | finish q i queue parcel outcome found => exact ⟨q, _, exists_lt found, rfl⟩
  | recheck q i queue found => exact ⟨q, _, exists_lt found, rfl⟩

theorem Housed.step (h : Housed w) (step : Step w w') : Housed w' := by
  constructor
  · intro seen mem
    obtain ⟨q, e, known, events⟩ := step.events_eq h
    rw [step.length_queues]
    rw [events] at mem
    rcases List.mem_append.1 mem with old | new
    · exact h.events_lt seen old
    · exact List.mem_singleton.1 new ▸ known
  · intro p mem
    rcases step.begins_or_goes_on with ⟨plans, q, parcel, known, -, rfl⟩ | ⟨-, old⟩
    · have before : Housed { w with plans } := ⟨h.events_lt, h.pushes_lt⟩
      exact (before.begin known parcel).pushes_lt p mem
    · obtain ⟨p', mem', target, -⟩ := old p mem
      rw [step.length_queues, ← target]
      exact h.pushes_lt p' mem'

def addQueue (w : Workshop J) (name : String) : Workshop J :=
  { w with queues := w.queues ++ [{ name }] }

@[simp]
theorem names_addQueue (w : Workshop J) (name : String) :
    (w.addQueue name).queues.map Queue.name = w.queues.map Queue.name ++ [name] :=
  List.map_append

theorem length_le_addQueue (w : Workshop J) (name : String) :
    w.queues.length ≤ (w.addQueue name).queues.length := by
  rw [addQueue, List.length_append]
  exact Nat.le_add_right ..

theorem Housed.addQueue (h : Housed w) (name : String) : Housed (w.addQueue name) := by
  have more := length_le_addQueue w name
  exact ⟨fun e mem => Nat.lt_of_lt_of_le (h.events_lt e mem) more,
    fun p mem => Nat.lt_of_lt_of_le (h.pushes_lt p mem) more⟩

theorem Housed.eventsOn_eq_nil (h : Housed w) : w.eventsOn w.queues.length = [] := by
  refine List.filterMap_eq_nil_iff.2 fun e mem => if_neg ?_
  exact Nat.ne_of_lt (h.events_lt e mem)

theorem Housed.countP_eq_zero (h : Housed w) (isEnqueued : Bool) :
    w.pushes.countP (Push.isAt w.queues.length isEnqueued) = 0 := by
  refine List.countP_eq_zero.2 fun p mem at_new => ?_
  simp only [Push.isAt, Bool.and_eq_true, decide_eq_true_eq] at at_new
  exact Nat.ne_of_lt (h.pushes_lt p mem) at_new.1

/-- A new queue is sound, and the others are as they were. -/
theorem Sound.addQueue (sound : Sound w) (housed : Housed w) (name : String) :
    Sound (w.addQueue name) := by
  have cases_of {r : QueueRef} {queue : Queue (Parcel J)}
      (found : (w.addQueue name).queues[r]? = some queue) :
      r = w.queues.length ∧ { name } = queue ∨ w.queues[r]? = some queue := by
    rw [Workshop.addQueue, getElem?_append_singleton] at found
    split at found
    · next new => exact .inl ⟨new, Option.some.inj found⟩
    · exact .inr found
  refine ⟨?_, ?_, ?_, sound.sources_nodup, sound.calls_eq⟩
  · intro r queue found
    rcases cases_of found with ⟨rfl, rfl⟩ | old
    · rw [show (w.addQueue name).eventsOn w.queues.length = [] from housed.eventsOn_eq_nil]
      exact ⟨name, .refl _⟩
    · exact sound.runs r queue old
  · intro r queue found
    rcases cases_of found with ⟨rfl, rfl⟩ | old
    · exact (housed.countP_eq_zero false).symm
    · exact sound.counting_eq r queue old
  · intro r queue found
    rcases cases_of found with ⟨rfl, rfl⟩ | old
    · exact (housed.countP_eq_zero true).symm
    · exact sound.waking_eq r queue old

end Workshop

end ChatHall.Jobs
