/-
# The register of queues at work

Callers and jobs that use queues by name or with a queue at hand, while others make queues,
register them and take names away. A look-up is a read and, if the name stands for nothing,
a second access that makes a queue unless somebody was faster; only then does a push begin.
In between anything can happen to the name. It makes no difference to the queue that the
look-up came to: whoever has a queue goes on using it.
-/

import ChatHall.Proofs.Jobs.Growth

namespace ChatHall.Jobs

variable {J : Type}

/-! ## Accesses to the register -/

/-- What is noted of an access. -/
inductive Access (J : Type)
  /-- A look-up came to a queue, for a job that is pushed there if there is one. -/
  | resolved (s : Source) (name : String) (q : QueueRef) (job : Option J)
  /-- A job is pushed to a queue that somebody has at hand. -/
  | taken (s : Source) (q : QueueRef) (job : J)
  | registered (name : String) (q : QueueRef)
  | removed (name : String)
  deriving Repr, DecidableEq

namespace Access

/-- Whether an access may give a name to another queue. -/
def touches (name : String) : Access J → Bool
  | registered given _ => given = name
  | removed given => given = name
  | _ => false

/-- The queue that somebody got or had at hand. -/
def queue? : Access J → Option QueueRef
  | resolved _ _ q _ => some q
  | taken _ q _ => some q
  | registered _ q => some q
  | removed _ => none

def directed (s : Source) (q : QueueRef) : Access J → Option J
  | resolved source _ target job => if source = s ∧ target = q then job else none
  | taken source target job => if source = s ∧ target = q then some job else none
  | _ => none

def named (s : Source) (name : String) : Access J → Option J
  | resolved source asked _ job => if source = s ∧ asked = name then job else none
  | _ => none

end Access

/-! ## Errands -/

/-- What somebody is in the middle of who has called for a queue. -/
inductive Errand (J : Type)
  /-- The name stood for nothing; a job is to be pushed afterwards if there is one. -/
  | making (s : Source) (name : String) (job : Option J)
  /-- The queue is there and the push has not begun. -/
  | holding (s : Source) (q : QueueRef) (job : J)
  deriving Repr, DecidableEq

namespace Errand

def source : Errand J → Source
  | making s _ _ => s
  | holding s _ _ => s

/-- The job that somebody has still to push to a queue. -/
def held (s : Source) (q : QueueRef) : Errand J → Option J
  | making .. => none
  | holding source target job => if source = s ∧ target = q then some job else none

/-- What is left to do for somebody who has got a queue. -/
def next (s : Source) (q : QueueRef) (job : Option J) : List (Errand J) :=
  job.toList.map fun job => holding s q job

end Errand

/-- The jobs that somebody has still to push to a queue, having got it. -/
def heldBy (errands : List (Errand J)) (s : Source) (q : QueueRef) : List J :=
  errands.filterMap (Errand.held s q)

theorem heldBy_append (earlier later : List (Errand J)) (s : Source) (q : QueueRef) :
    heldBy (earlier ++ later) s q = heldBy earlier s q ++ heldBy later s q :=
  List.filterMap_append

theorem heldBy_next (s s' : Source) (q q' : QueueRef) (job : Option J) :
    heldBy (Errand.next s q job) s' q' = if s = s' ∧ q = q' then job.toList else [] := by
  cases job <;> by_cases own : s = s' ∧ q = q' <;> simp [heldBy, Errand.next, Errand.held, own]

theorem heldBy_eq_nil {errands : List (Errand J)} {s : Source}
    (others : ∀ errand ∈ errands, errand.source ≠ s) (q : QueueRef) : heldBy errands s q = [] := by
  refine List.filterMap_eq_nil_iff.2 fun errand mem => ?_
  cases errand with
  | making => rfl
  | holding source target job => exact if_neg fun own => others _ mem own.1

/-! ## The steps -/

/-- Queues, their users, and the register. -/
structure Directory (J : Type) where
  workshop : Workshop J := { queues := [], plans := [] }
  names : Table String QueueRef := {}
  errands : List (Errand J) := []
  /-- All accesses to the register, and all pushes to queues at hand, in order. -/
  accesses : List (Access J) := []

namespace Directory

def pool (d : Directory J) : Pool (Parcel J) := ⟨d.workshop.queues, d.names⟩

def withPool (d : Directory J) (p : Pool (Parcel J)) : Directory J :=
  { d with workshop := { d.workshop with queues := p.queues }, names := p.names }

def note (d : Directory J) (a : Access J) : Directory J := { d with accesses := d.accesses ++ [a] }

/-- Somebody's look-up has come to a queue. -/
def resolve (d : Directory J) (s : Source) (name : String) (q : QueueRef) (job : Option J) :
    Directory J :=
  { d.note (.resolved s name q job) with errands := d.errands ++ Errand.next s q job }

/-- Whether somebody is there to act: a job can only while it is executed. -/
def Acts (w : Workshop J) : Source → Prop
  | .outside _ => True
  | .inside q i => ∃ queue parcel, w.queues[q]? = some queue ∧
      queue.drains[i]? = some (.executing parcel)

/-- Whether somebody can take up something new. -/
structure IsReady (d : Directory J) (s : Source) : Prop where
  acts : Acts d.workshop s
  no_errand : ∀ errand ∈ d.errands, errand.source ≠ s
  no_push : d.workshop.IsFree s

/-- What somebody may take up at any time. -/
inductive Call : Directory J → Directory J → Prop
  /-- A look-up finds a queue. -/
  | find (d : Directory J) (s : Source) (name : String) (q : QueueRef) (job : Option J)
      (found : d.pool.find? name = some q) (ready : d.IsReady s) :
      Call d (d.resolve s name q job)
  /-- A look-up finds nothing. -/
  | miss (d : Directory J) (s : Source) (name : String) (job : Option J)
      (missing : d.pool.find? name = none) (ready : d.IsReady s) :
      Call d { d with errands := d.errands ++ [.making s name job] }
  /-- A job is to be pushed to a queue at hand. -/
  | take (d : Directory J) (s : Source) (q : QueueRef) (job : J)
      (known : q < d.workshop.queues.length) (ready : d.IsReady s) :
      Call d { d.note (.taken s q job) with errands := d.errands ++ [.holding s q job] }
  /-- A queue is made that is not registered. -/
  | create (d : Directory J) (name : String) : Call d (d.withPool (d.pool.create name).1)
  | register (d : Directory J) (q : QueueRef) (queue : Queue (Parcel J))
      (found : d.pool.queue? q = some queue) :
      Call d ((d.withPool (d.pool.register q)).note (.registered queue.name q))
  | remove (d : Directory J) (name : String) :
      Call d ((d.withPool (d.pool.remove name).1).note (.removed name))

/-- How what has been taken up goes on. -/
inductive Work : Directory J → Directory J → Prop
  /-- A queue is made for a name, unless there is one by now. -/
  | insert (d : Directory J) (earlier later : List (Errand J)) (s : Source) (name : String)
      (job : Option J) (underWay : d.errands = earlier ++ .making s name job :: later) :
      Work d (({ d.withPool (d.pool.insertIfAbsent name).1 with
        errands := earlier ++ later }).resolve s name (d.pool.insertIfAbsent name).2 job)
  /-- The push to a queue that was got begins. -/
  | begin (d : Directory J) (earlier later : List (Errand J)) (s : Source) (q : QueueRef) (job : J)
      (underWay : d.errands = earlier ++ .holding s q job :: later) :
      Work d { d with workshop := d.workshop.begin q ⟨s, job⟩, errands := earlier ++ later }
  /-- A push or a drain goes on. No job ends that is in the middle of an errand. -/
  | proceed (d : Directory J) (w : Workshop J) (step : Workshop.Step d.workshop w)
      (calls : w.calls = d.workshop.calls)
      (acts : ∀ errand ∈ d.errands, Acts w errand.source) : Work d { d with workshop := w }

inductive Run : Directory J → Directory J → Prop
  | refl (d : Directory J) : Run d d
  | call {d d' d'' : Directory J} (run : Run d d') (last : Call d' d'') : Run d d''
  | work {d d' d'' : Directory J} (run : Run d d') (last : Work d' d'') : Run d d''

/-- The jobs that somebody was to push to a queue from the moment when the queue was got, in
order. -/
def directedTo (d : Directory J) (s : Source) (q : QueueRef) : List J :=
  d.accesses.filterMap (Access.directed s q)

/-! ## Steps that nobody interrupts -/

variable {d d' d'' : Directory J} {s : Source}

theorem Run.trans (run : Run d d') (more : Run d' d'') : Run d d'' := by
  induction more with
  | refl => exact run
  | call _ last ih => exact ih.call last
  | work _ last ih => exact ih.work last

/-- A look-up in one go is that of the pool. -/
theorem exists_run_getOrCreate (alone : d.errands = []) (ready : d.IsReady s) (name : String)
    (job : Option J) :
    ∃ d', Run d d' ∧ d'.pool = (d.pool.getOrCreate name).1 ∧
      d'.errands = Errand.next s (d.pool.getOrCreate name).2 job := by
  rw [Pool.getOrCreate]
  cases found : d.pool.find? name with
  | some q =>
      refine ⟨_, (Run.refl d).call (.find d s name q job found ready), rfl, ?_⟩
      rw [resolve, alone]
      rfl
  | none =>
      refine ⟨_, ((Run.refl d).call (.miss d s name job found ready)).work
        (.insert _ d.errands [] s name job rfl), rfl, ?_⟩
      rw [resolve, alone]
      rfl

/-- A push in one go is that of the pool. -/
theorem exists_run_push {q : QueueRef} {job : J} (holds : d.errands = [.holding s q job]) :
    ∃ d', Run d d' ∧ d'.pool = d.pool.push q ⟨s, job⟩ := by
  have run := ((Run.refl d).work (.begin d [] [] s q job holds))
    |>.work (.proceed _ _ (.enqueue _ d.workshop.pushes [] q ⟨s, job⟩ rfl) rfl
      fun _ => List.not_mem_nil.elim)
    |>.work (.proceed _ _ (.wake _ d.workshop.pushes [] q ⟨s, job⟩ rfl) rfl
      fun _ => List.not_mem_nil.elim)
  refine ⟨_, run, ?_⟩
  simp only [pool, Pool.push, Pool.modify, Workshop.begin, Workshop.onQueue,
    List.modify_modify_eq]
  rfl

/-- A push by name in one go is that of the pool. -/
theorem exists_run_pushNamed (alone : d.errands = []) (ready : d.IsReady s) (name : String)
    (job : J) : ∃ d', Run d d' ∧ d'.pool = d.pool.pushNamed name ⟨s, job⟩ := by
  obtain ⟨d', run, pool_eq, errands⟩ := exists_run_getOrCreate alone ready name (some job)
  obtain ⟨d'', more, pushed⟩ := exists_run_push errands
  exact ⟨d'', run.trans more, by rw [pushed, pool_eq]; rfl⟩

end Directory

end ChatHall.Jobs
