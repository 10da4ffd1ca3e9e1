/-
# What a pool holds

The jobs of a pool are those that wait in its queues and those that the drains are
executing. A job comes in by a push and nowhere else, and by taking the place of the
job whose next stage it is; so what is so of every job that is pushed is so of every
job that is run.
-/

import ChatHall.Proofs.Jobs.Pool

namespace ChatHall.Jobs

variable {J : Type} {P : J → Prop}

namespace Queue

/-- Whether something is so of all jobs of a queue. -/
structure Holds (P : J → Prop) (q : Queue J) : Prop where
  waiting : ∀ job ∈ q.waiting, P job
  executing : ∀ job, .executing job ∈ q.drains → P job

variable {q : Queue J}

theorem Holds.push (h : q.Holds P) {job : J} (new : P job) : (q.push job).Holds P := by
  have waiting : ∀ other ∈ q.waiting ++ [job], P other := fun other mem => by
    rcases List.mem_append.1 mem with old | last
    · exact h.waiting other old
    · exact List.mem_singleton.1 last ▸ new
  rw [Queue.push, wake]
  split
  · exact ⟨waiting, h.executing⟩
  · refine ⟨waiting, fun other mem => ?_⟩
    rcases List.mem_append.1 mem with old | last
    · exact h.executing other old
    · cases List.mem_singleton.1 last

/-- A drain goes on in a phase in which it executes nothing that is not so. -/
theorem Holds.setPhase (h : q.Holds P) (i : Nat) {phase : Phase J}
    (next : ∀ job, phase = .executing job → P job) : (q.setPhase i phase).Holds P := by
  refine ⟨h.waiting, fun job mem => ?_⟩
  rcases List.mem_or_eq_of_mem_set mem with old | new
  · exact h.executing job old
  · exact next job new.symm

theorem Holds.fetch (h : q.Holds P) (i : Nat) : (q.fetch i).Holds P := by
  rw [Queue.fetch]
  split
  · exact h.setPhase i (by simp)
  · next job later first =>
      have all := h.waiting
      rw [first] at all
      obtain ⟨front, behind⟩ := List.forall_mem_cons.1 all
      have taken := h.setPhase i fun other same => Phase.executing.inj same ▸ front
      exact ⟨behind, taken.executing⟩

theorem Holds.finish (h : q.Holds P) (i : Nat) (outcome : Except Failure Unit) :
    (q.finish i outcome).Holds P := by
  have done : (q.setPhase i .fetching).Holds P := h.setPhase i (by simp)
  cases outcome <;> exact ⟨done.waiting, done.executing⟩

theorem Holds.recheck (h : q.Holds P) (i : Nat) : (q.recheck i).Holds P := by
  rw [Queue.recheck]
  split
  · exact ⟨h.waiting, fun job mem => h.executing job (List.mem_of_mem_eraseIdx mem)⟩
  · exact h.setPhase i (by simp)

end Queue

namespace Pool

/-- What is so of all elements and kept by a change is so of all after the change of one. -/
theorem forall_mem_modify {α : Type} {good : α → Prop} {l : List α} (h : ∀ a ∈ l, good a) {i : Nat}
    {f : α → α} (keeps : ∀ a, l[i]? = some a → good a → good (f a)) :
    ∀ a ∈ l.modify i f, good a := by
  intro a mem
  obtain ⟨k, found⟩ := List.mem_iff_getElem?.1 mem
  rw [getElem?_modify_eq] at found
  split at found
  · next same =>
      obtain ⟨b, before, rfl⟩ := Option.map_eq_some_iff.1 found
      exact keeps b (same ▸ before) (h b (List.mem_of_getElem? before))
  · exact h a (List.mem_of_getElem? found)

/-- Whether something is so of all jobs of a pool. -/
def Holds (P : J → Prop) (p : Pool J) : Prop := ∀ queue ∈ p.queues, queue.Holds P

variable {p : Pool J}

theorem Holds.modify (h : p.Holds P) (q : QueueRef) {f : Queue J → Queue J}
    (keeps : ∀ queue, queue.Holds P → (f queue).Holds P) : (p.modify q f).Holds P :=
  forall_mem_modify h fun queue _ => keeps queue

theorem Holds.push (h : p.Holds P) (q : QueueRef) {job : J} (new : P job) :
    (p.push q job).Holds P :=
  h.modify q fun _ holds => holds.push new

theorem Holds.create (h : p.Holds P) (name : String) : (p.create name).1.Holds P := by
  intro queue mem
  rcases List.mem_append.1 mem with old | new
  · exact h queue old
  · rw [List.mem_singleton.1 new]
    exact ⟨fun _ => List.not_mem_nil.elim, fun _ => List.not_mem_nil.elim⟩

theorem Holds.getOrCreate (h : p.Holds P) (name : String) : (p.getOrCreate name).1.Holds P := by
  rw [Pool.getOrCreate, insertIfAbsent]
  split
  · exact h
  · split
    · exact h
    · exact h.create name

theorem Holds.register (h : p.Holds P) (q : QueueRef) : (p.register q).Holds P := by
  rw [Pool.register]
  split <;> exact h

theorem Holds.of_queue? (h : p.Holds P) {q : QueueRef} {queue : Queue J}
    (found : p.queue? q = some queue) : queue.Holds P :=
  h queue (List.mem_of_getElem? found)

end Pool

end ChatHall.Jobs
