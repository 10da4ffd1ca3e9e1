/-
# Many producers and many queues

The whole of a program that uses queues: callers who push what they have
planned, drains that execute jobs, and jobs that push further jobs, to their own
queue or to others, before they come to their end. A push is three steps, and
every step of the whole is a step of one queue, so what holds of a queue in all
of its runs holds of each queue here.
-/

import ChatHall.Jobs.Pool
import ChatHall.Proofs.Jobs.Serial
import Mathlib.Data.List.Nodup

namespace ChatHall.Jobs

/-! ## The steps of a workshop -/

/-- Who pushes: a caller from outside, or the job that a drain is executing. -/
inductive Source
  | outside (n : Nat)
  | inside (q : QueueRef) (i : Nat)
  deriving Repr, DecidableEq

structure Parcel (J : Type) where
  source : Source
  job : J
  deriving Repr, DecidableEq

/-- A push under way. Its job is counted already. -/
structure Push (J : Type) where
  target : QueueRef
  parcel : Parcel J
  /-- Whether only the look at the flag is left to do. -/
  isEnqueued : Bool := false
  deriving Repr, DecidableEq

/-- Whether a push to a queue stands before its job is enqueued, or after. -/
def Push.isAt {J : Type} (q : QueueRef) (isEnqueued : Bool) (p : Push J) : Bool :=
  p.target = q && p.isEnqueued == isEnqueued

@[simp]
theorem Push.isAt_mk {J : Type} (q target : QueueRef) (parcel : Parcel J) (before after : Bool) :
    Push.isAt q before ⟨target, parcel, after⟩ = (decide (target = q) && after == before) := rfl

/-- Some queues and everybody who works with them. -/
structure Workshop (J : Type) where
  queues : List (Queue (Parcel J))
  /-- What the callers have still to push, each in its order. -/
  plans : List (List (QueueRef × J))
  pushes : List (Push J) := []
  /-- All pushes ever begun, in order. -/
  calls : List (QueueRef × Parcel J) := []
  /-- What the queues have shown, in order. -/
  events : List (QueueRef × Queue.Event (Parcel J)) := []

namespace Workshop

variable {J : Type}

def start (names : List String) (plans : List (List (QueueRef × J))) : Workshop J where
  queues := names.map fun name => { name }
  plans

def onQueue (w : Workshop J) (q : QueueRef) (f : Queue (Parcel J) → Queue (Parcel J))
    (e : Queue.Event (Parcel J)) : Workshop J :=
  { w with queues := w.queues.modify q f, events := w.events ++ [(q, e)] }

/-- A push begins: its job is counted. -/
def begin (w : Workshop J) (q : QueueRef) (parcel : Parcel J) : Workshop J :=
  { w.onQueue q Queue.count .counted with
    pushes := w.pushes ++ [{ target := q, parcel }]
    calls := w.calls ++ [(q, parcel)] }

/-- Whether somebody is not in the middle of a push. -/
def IsFree (w : Workshop J) (s : Source) : Prop := ∀ p ∈ w.pushes, p.parcel.source ≠ s

/-- The steps of callers, pushes and drains, in any order. -/
inductive Step : Workshop J → Workshop J → Prop
  /-- A caller begins the next push that it has planned. -/
  | call (w : Workshop J) (n : Nat) (q : QueueRef) (job : J) (later : List (QueueRef × J))
      (planned : w.plans[n]? = some ((q, job) :: later)) (known : q < w.queues.length)
      (free : w.IsFree (.outside n)) :
      Step w ({ w with plans := w.plans.set n later }.begin q ⟨.outside n, job⟩)
  /-- A job that is executed begins a push. -/
  | callInside (w : Workshop J) (q : QueueRef) (i : Nat) (queue : Queue (Parcel J))
      (parcel : Parcel J) (target : QueueRef) (job : J) (found : w.queues[q]? = some queue)
      (executes : queue.drains[i]? = some (.executing parcel)) (known : target < w.queues.length)
      (free : w.IsFree (.inside q i)) : Step w (w.begin target ⟨.inside q i, job⟩)
  | enqueue (w : Workshop J) (earlier later : List (Push J)) (target : QueueRef)
      (parcel : Parcel J) (underWay : w.pushes = earlier ++ ⟨target, parcel, false⟩ :: later) :
      Step w { w.onQueue target (·.enqueue parcel) (.enqueued parcel) with
        pushes := earlier ++ ⟨target, parcel, true⟩ :: later }
  | wake (w : Workshop J) (earlier later : List (Push J)) (target : QueueRef)
      (parcel : Parcel J) (underWay : w.pushes = earlier ++ ⟨target, parcel, true⟩ :: later) :
      Step w { w.onQueue target Queue.wake .woken with pushes := earlier ++ later }
  | start (w : Workshop J) (q : QueueRef) (i : Nat) (queue : Queue (Parcel J))
      (parcel : Parcel J) (later : List (Parcel J)) (found : w.queues[q]? = some queue)
      (phase : queue.drains[i]? = some .fetching) (waiting : queue.waiting = parcel :: later) :
      Step w (w.onQueue q (·.fetch i) (.started parcel))
  | findNone (w : Workshop J) (q : QueueRef) (i : Nat) (queue : Queue (Parcel J))
      (found : w.queues[q]? = some queue) (phase : queue.drains[i]? = some .fetching)
      (waiting : queue.waiting = []) : Step w (w.onQueue q (·.fetch i) .foundNone)
  /-- A job comes to its end, well or not, once its last push is done. -/
  | finish (w : Workshop J) (q : QueueRef) (i : Nat) (queue : Queue (Parcel J))
      (parcel : Parcel J) (outcome : Except Failure Unit) (found : w.queues[q]? = some queue)
      (executes : queue.drains[i]? = some (.executing parcel)) (free : w.IsFree (.inside q i)) :
      Step w (w.onQueue q (·.finish i outcome) (.finished parcel outcome))
  | recheck (w : Workshop J) (q : QueueRef) (i : Nat) (queue : Queue (Parcel J))
      (found : w.queues[q]? = some queue) (phase : queue.drains[i]? = some .rechecking) :
      Step w (w.onQueue q (·.recheck i) .rechecked)

inductive Run : Workshop J → Workshop J → Prop
  | refl (w : Workshop J) : Run w w
  | step {u v w : Workshop J} (run : Run u v) (last : Step v w) : Run u w

/-! ## What is seen of one queue, and of one producer -/

def eventsOn (w : Workshop J) (q : QueueRef) : List (Queue.Event (Parcel J)) :=
  w.events.filterMap fun (target, e) => if target = q then some e else none

/-- The jobs that somebody has begun to push to a queue, in order. -/
def callsTo (w : Workshop J) (s : Source) (q : QueueRef) : List J :=
  w.calls.filterMap fun (target, parcel) =>
    if target = q ∧ parcel.source = s then some parcel.job else none

def callsFrom (w : Workshop J) (n : Nat) : List (QueueRef × J) :=
  w.calls.filterMap fun (target, parcel) =>
    if parcel.source = .outside n then some (target, parcel.job) else none

variable {w : Workshop J} {q r : QueueRef} {f : Queue (Parcel J) → Queue (Parcel J)}
  {e : Queue.Event (Parcel J)}

theorem getElem?_modify_cases {queue : Queue (Parcel J)}
    (found : (w.queues.modify q f)[r]? = some queue) :
    (q = r ∧ ∃ before, w.queues[r]? = some before ∧ queue = f before) ∨
      (q ≠ r ∧ w.queues[r]? = some queue) := by
  simp only [List.getElem?_modify, Option.map_eq_map, Option.map_eq_some_iff] at found
  obtain ⟨before, hbefore, hqueue⟩ := found
  by_cases same : q = r
  · rw [if_pos same] at hqueue
    exact .inl ⟨same, before, hbefore, hqueue.symm⟩
  · rw [if_neg same] at hqueue
    exact .inr ⟨same, hqueue ▸ hbefore⟩

theorem eventsOn_onQueue :
    (w.onQueue q f e).eventsOn r = w.eventsOn r ++ if q = r then [e] else [] := by
  simp only [eventsOn, onQueue, List.filterMap_append]
  by_cases same : q = r <;> simp [same]

/-! ## The invariant -/

/-- What somebody has enqueued on a queue, in order. -/
def arrivals (w : Workshop J) (s : Source) (q : QueueRef) : List J :=
  ((Queue.enqueuedIn (w.eventsOn q)).filter (·.source = s)).map Parcel.job

/-- What somebody is about to enqueue on a queue. -/
def announced (pushes : List (Push J)) (s : Source) (q : QueueRef) : List J :=
  (pushes.filter fun p => p.isAt q false && p.parcel.source = s).map (·.parcel.job)

theorem announced_append (earlier later : List (Push J)) (s : Source) :
    announced (earlier ++ later) s q = announced earlier s q ++ announced later s q := by
  rw [announced, List.filter_append, List.map_append]
  rfl

theorem announced_cons (target : QueueRef) (parcel : Parcel J) (isEnqueued : Bool)
    (later : List (Push J)) (s : Source) :
    announced (⟨target, parcel, isEnqueued⟩ :: later) s q =
      (if isEnqueued = false ∧ target = q ∧ parcel.source = s then [parcel.job] else []) ++
        announced later s q := by
  rw [announced, List.filter_cons, announced]
  cases isEnqueued <;> by_cases at_q : target = q <;> by_cases own : parcel.source = s <;>
    simp [at_q, own]

/-- Nobody announces anything who is in the middle of no push. -/
theorem announced_eq_nil {pushes : List (Push J)} {s : Source}
    (free : ∀ p ∈ pushes, p.parcel.source ≠ s) : announced pushes s q = [] := by
  rw [announced, List.map_eq_nil_iff, List.filter_eq_nil_iff]
  intro p hp
  simp [free p hp]

/-- Each queue has come to its state by steps of its own, the producers that it knows of are
the pushes under way, nobody is in the middle of two of them, and what has been begun is
enqueued in the same order. -/
structure Sound (w : Workshop J) : Prop where
  runs : ∀ q queue, w.queues[q]? = some queue →
    ∃ name, Queue.Run { name } (w.eventsOn q) queue
  counting_eq : ∀ q queue, w.queues[q]? = some queue →
    queue.counting = w.pushes.countP (Push.isAt q false)
  waking_eq : ∀ q queue, w.queues[q]? = some queue →
    queue.waking = w.pushes.countP (Push.isAt q true)
  sources_nodup : (w.pushes.map (·.parcel.source)).Nodup
  calls_eq : ∀ s q, w.callsTo s q = w.arrivals s q ++ announced w.pushes s q

theorem sound_start (names : List String) (plans : List (List (QueueRef × J))) :
    Sound (start names plans) where
  runs q queue found := by
    simp only [start, List.getElem?_map, Option.map_eq_some_iff] at found
    obtain ⟨name, -, rfl⟩ := found
    exact ⟨name, .refl _⟩
  counting_eq q queue found := by
    simp only [start, List.getElem?_map, Option.map_eq_some_iff] at found
    obtain ⟨name, -, rfl⟩ := found
    rfl
  waking_eq q queue found := by
    simp only [start, List.getElem?_map, Option.map_eq_some_iff] at found
    obtain ⟨name, -, rfl⟩ := found
    rfl
  sources_nodup := List.nodup_nil
  calls_eq _ _ := rfl

theorem Sound.runs_onQueue (h : Sound w)
    (step : ∀ queue, w.queues[q]? = some queue → Queue.Step queue e (f queue)) (r : QueueRef)
    (queue : Queue (Parcel J)) (found : (w.onQueue q f e).queues[r]? = some queue) :
    ∃ name, Queue.Run { name } ((w.onQueue q f e).eventsOn r) queue := by
  rw [eventsOn_onQueue]
  rcases getElem?_modify_cases found with ⟨rfl, before, hbefore, rfl⟩ | ⟨other, hqueue⟩
  · obtain ⟨name, run⟩ := h.runs q before hbefore
    rw [if_pos rfl]
    exact ⟨name, run.step (step before hbefore)⟩
  · rw [if_neg other, List.append_nil]
    exact h.runs r queue hqueue

theorem arrivals_onQueue (s : Source) :
    (w.onQueue q f e).arrivals s r = w.arrivals s r ++
      if q = r then ((Queue.enqueuedIn [e]).filter (·.source = s)).map Parcel.job else [] := by
  rw [arrivals, eventsOn_onQueue, arrivals]
  split
  · rw [Queue.enqueuedIn, List.filterMap_append, List.filter_append, List.map_append]
    rfl
  · simp

/-- A step of a drain. -/
theorem Sound.drain (h : Sound w)
    (step : ∀ queue, w.queues[q]? = some queue → Queue.Step queue e (f queue))
    (same : ∀ queue, (f queue).counting = queue.counting ∧ (f queue).waking = queue.waking)
    (nothing : Queue.enqueuedIn [e] = []) : Sound (w.onQueue q f e) where
  runs := h.runs_onQueue step
  counting_eq r queue found := by
    rcases getElem?_modify_cases found with ⟨-, before, hbefore, rfl⟩ | ⟨-, hqueue⟩
    · rw [(same before).1]
      exact h.counting_eq r before hbefore
    · exact h.counting_eq r queue hqueue
  waking_eq r queue found := by
    rcases getElem?_modify_cases found with ⟨-, before, hbefore, rfl⟩ | ⟨-, hqueue⟩
    · rw [(same before).2]
      exact h.waking_eq r before hbefore
    · exact h.waking_eq r queue hqueue
  sources_nodup := h.sources_nodup
  calls_eq s r := by
    rw [arrivals_onQueue, nothing]
    simp only [List.filter_nil, List.map_nil, ite_self, List.append_nil]
    exact h.calls_eq s r

theorem callsTo_begin (w : Workshop J) (q : QueueRef) (parcel : Parcel J) (s : Source)
    (r : QueueRef) : (w.begin q parcel).callsTo s r =
      w.callsTo s r ++ if q = r ∧ parcel.source = s then [parcel.job] else [] := by
  simp only [callsTo, begin, List.filterMap_append, List.filterMap_cons, List.filterMap_nil]
  split <;> simp_all

/-- The first step of a push. -/
theorem Sound.begin (h : Sound w) (q : QueueRef) {parcel : Parcel J}
    (free : w.IsFree parcel.source) : Sound (w.begin q parcel) where
  runs := h.runs_onQueue fun queue _ => .count queue
  counting_eq r queue found := by
    simp only [Workshop.begin, List.countP_append, List.countP_singleton, Push.isAt_mk]
    rcases getElem?_modify_cases found with ⟨rfl, before, hbefore, rfl⟩ | ⟨other, hqueue⟩
    · simp [Queue.count, h.counting_eq q before hbefore]
    · simp [h.counting_eq r queue hqueue, other]
  waking_eq r queue found := by
    simp only [Workshop.begin, List.countP_append, List.countP_singleton, Push.isAt_mk]
    rcases getElem?_modify_cases found with ⟨rfl, before, hbefore, rfl⟩ | ⟨other, hqueue⟩
    · simp [Queue.count, h.waking_eq q before hbefore]
    · simp [h.waking_eq r queue hqueue]
  sources_nodup := by
    simp only [Workshop.begin, List.map_append, List.map_singleton]
    refine List.nodup_append.2 ⟨h.sources_nodup, by simp, ?_⟩
    intro s hs t ht same
    obtain ⟨p, hp, rfl⟩ := List.mem_map.1 hs
    exact free p hp (same.trans (List.mem_singleton.1 ht))
  calls_eq s r := by
    have more : announced (w.begin q parcel).pushes s r = announced w.pushes s r ++
        if q = r ∧ parcel.source = s then [parcel.job] else [] := by
      rw [Workshop.begin, announced_append, announced_cons]
      simp [announced]
    have arrivals : (w.begin q parcel).arrivals s r = w.arrivals s r := by
      show (w.onQueue q Queue.count .counted).arrivals s r = _
      rw [arrivals_onQueue]
      simp [Queue.enqueuedIn]
    rw [callsTo_begin, more, arrivals, h.calls_eq, List.append_assoc]

/-- A push under way is the only one of its source. -/
theorem Sound.source_ne (h : Sound w) {earlier later : List (Push J)} {push : Push J}
    (underWay : w.pushes = earlier ++ push :: later) {p : Push J} (other : p ∈ earlier ++ later) :
    p.parcel.source ≠ push.parcel.source := by
  intro same
  have nodup := h.sources_nodup
  rw [underWay, List.map_append, List.map_cons, List.nodup_middle, ← List.map_append,
    List.nodup_cons] at nodup
  exact nodup.1 (List.mem_map.2 ⟨p, other, same⟩)

/-- The second step of a push. -/
theorem Sound.enqueue (h : Sound w) {earlier later : List (Push J)} {target : QueueRef}
    {parcel : Parcel J} (underWay : w.pushes = earlier ++ ⟨target, parcel, false⟩ :: later) :
    Sound { w.onQueue target (·.enqueue parcel) (.enqueued parcel) with
      pushes := earlier ++ ⟨target, parcel, true⟩ :: later } where
  runs := h.runs_onQueue fun queue found => by
    refine .enqueue queue parcel ?_
    rw [h.counting_eq target queue found, underWay]
    exact List.countP_pos_iff.2 ⟨_, List.mem_append_cons_self, by simp⟩
  counting_eq r queue found := by
    simp only [List.countP_append, List.countP_cons, Push.isAt_mk]
    rcases getElem?_modify_cases found with ⟨rfl, before, hbefore, rfl⟩ | ⟨other, hqueue⟩
    · simp [Queue.enqueue, h.counting_eq target before hbefore, underWay, List.countP_append]
    · simp [h.counting_eq r queue hqueue, other, underWay, List.countP_append]
  waking_eq r queue found := by
    simp only [List.countP_append, List.countP_cons, Push.isAt_mk]
    rcases getElem?_modify_cases found with ⟨rfl, before, hbefore, rfl⟩ | ⟨other, hqueue⟩
    · simp [Queue.enqueue, h.waking_eq target before hbefore, underWay, List.countP_append]
      omega
    · simp [h.waking_eq r queue hqueue, other, underWay, List.countP_append]
  sources_nodup := by
    have nodup := h.sources_nodup
    rw [underWay] at nodup
    simpa using nodup
  calls_eq s r := by
    have calls : w.callsTo s r = w.arrivals s r ++ announced w.pushes s r := h.calls_eq s r
    show w.callsTo s r =
      (w.onQueue target (·.enqueue parcel) (.enqueued parcel)).arrivals s r ++
        announced (earlier ++ ⟨target, parcel, true⟩ :: later) s r
    rw [arrivals_onQueue, calls, underWay, announced_append, announced_append, announced_cons,
      announced_cons]
    by_cases own : target = r ∧ parcel.source = s
    · -- A source has one push under way, so this job was all that it had announced.
      obtain ⟨rfl, rfl⟩ := own
      have none_before : announced earlier parcel.source target = [] :=
        announced_eq_nil fun p hp => h.source_ne underWay (List.mem_append_left _ hp)
      have none_behind : announced later parcel.source target = [] :=
        announced_eq_nil fun p hp => h.source_ne underWay (List.mem_append_right _ hp)
      simp [none_before, none_behind, Queue.enqueuedIn]
    · have nothing : (if target = r then ((Queue.enqueuedIn [.enqueued parcel]).filter
          (·.source = s)).map Parcel.job else []) = [] := by
        split
        · next here => simpa [Queue.enqueuedIn] using fun same => own ⟨here, same⟩
        · rfl
      rw [nothing, if_neg (fun h => own h.2), if_neg (by simp), List.append_nil]

/-- The last step of a push. -/
theorem Sound.wake (h : Sound w) {earlier later : List (Push J)} {target : QueueRef}
    {parcel : Parcel J} (underWay : w.pushes = earlier ++ ⟨target, parcel, true⟩ :: later) :
    Sound { w.onQueue target Queue.wake .woken with pushes := earlier ++ later } where
  runs := h.runs_onQueue fun queue found => by
    refine .wake queue ?_
    rw [h.waking_eq target queue found, underWay]
    exact List.countP_pos_iff.2 ⟨_, List.mem_append_cons_self, by simp⟩
  counting_eq r queue found := by
    simp only [List.countP_append]
    rcases getElem?_modify_cases found with ⟨rfl, before, hbefore, rfl⟩ | ⟨other, hqueue⟩
    · rw [Queue.counting_wake]
      simp [h.counting_eq target before hbefore, underWay, List.countP_append]
    · simp [h.counting_eq r queue hqueue, underWay, List.countP_append]
  waking_eq r queue found := by
    simp only [List.countP_append]
    rcases getElem?_modify_cases found with ⟨rfl, before, hbefore, rfl⟩ | ⟨other, hqueue⟩
    · rw [Queue.waking_wake]
      simp [h.waking_eq target before hbefore, underWay, List.countP_append]
    · simp [h.waking_eq r queue hqueue, other, underWay, List.countP_append]
  sources_nodup := by
    have nodup := h.sources_nodup
    rw [underWay, List.map_append, List.map_cons, List.nodup_middle, List.nodup_cons] at nodup
    simpa using nodup.2
  calls_eq s r := by
    have calls : w.callsTo s r = w.arrivals s r ++ announced w.pushes s r := h.calls_eq s r
    show w.callsTo s r = (w.onQueue target Queue.wake .woken).arrivals s r ++
      announced (earlier ++ later) s r
    rw [arrivals_onQueue, calls, underWay, announced_append, announced_append, announced_cons]
    simp [Queue.enqueuedIn]

/-- Every step keeps a workshop sound. -/
theorem Sound.step (h : Sound w) {w' : Workshop J} (step : Step w w') : Sound w' := by
  cases step with
  | call n q job later planned known free =>
      refine Sound.begin ?_ q free
      exact ⟨h.runs, h.counting_eq, h.waking_eq, h.sources_nodup, h.calls_eq⟩
  | callInside q i queue parcel target job found executes known free =>
      exact h.begin target free
  | enqueue earlier later target parcel underWay => exact h.enqueue underWay
  | wake earlier later target parcel underWay => exact h.wake underWay
  | start q i queue parcel later found phase waiting =>
      refine h.drain ?_ (fun queue => ?_) rfl
      · intro queue' found'
        obtain rfl : queue = queue' := Option.some.inj (found.symm.trans found')
        exact .start queue i parcel later phase waiting
      · exact Queue.counters_fetch queue i
  | findNone q i queue found phase waiting =>
      refine h.drain ?_ (fun queue => ?_) rfl
      · intro queue' found'
        obtain rfl : queue = queue' := Option.some.inj (found.symm.trans found')
        exact .findNone queue i phase waiting
      · exact Queue.counters_fetch queue i
  | finish q i queue parcel outcome found executes free =>
      refine h.drain ?_ (fun queue => ?_) rfl
      · intro queue' found'
        obtain rfl : queue = queue' := Option.some.inj (found.symm.trans found')
        exact .finish queue i parcel outcome executes
      · exact Queue.counters_finish queue i outcome
  | recheck q i queue found phase =>
      refine h.drain ?_ (fun queue => ?_) rfl
      · intro queue' found'
        obtain rfl : queue = queue' := Option.some.inj (found.symm.trans found')
        exact .recheck queue i phase
      · exact Queue.counters_recheck queue i

theorem Run.sound {w' : Workshop J} (run : Run w w') (h : Sound w) : Sound w' := by
  induction run with
  | refl => exact h
  | step _ last ih => exact ih.step last

/-! ## A workshop that has come to rest -/

/-- Whether nothing that has begun can go on: there can only be new pushes. -/
def AtRest (w : Workshop J) : Prop := ∀ w', Step w w' → w'.calls ≠ w.calls

/-- A push under way can always go on. -/
theorem AtRest.pushes_eq_nil (rest : AtRest w) : w.pushes = [] := by
  cases underWay : w.pushes with
  | nil => rfl
  | cons push later =>
      exfalso
      obtain ⟨target, parcel, isEnqueued⟩ := push
      cases isEnqueued with
      | false => exact rest _ (.enqueue w [] later target parcel underWay) rfl
      | true => exact rest _ (.wake w [] later target parcel underWay) rfl

/-- A drain can always go on once no push is under way. -/
theorem AtRest.drains_eq_nil (rest : AtRest w) {queue : Queue (Parcel J)}
    (found : w.queues[q]? = some queue) : queue.drains = [] := by
  cases hdrains : queue.drains with
  | nil => rfl
  | cons phase others =>
      exfalso
      have alive : queue.drains[0]? = some phase := by rw [hdrains]; rfl
      cases phase with
      | fetching =>
          cases waiting : queue.waiting with
          | nil => exact rest _ (.findNone w q 0 queue found alive waiting) rfl
          | cons parcel later =>
              exact rest _ (.start w q 0 queue parcel later found alive waiting) rfl
      | executing parcel =>
          have free : w.IsFree (.inside q 0) := by
            intro p hp
            rw [rest.pushes_eq_nil] at hp
            cases hp
          exact rest _ (.finish w q 0 queue parcel (.ok ()) found alive free) rfl
      | rechecking => exact rest _ (.recheck w q 0 queue found alive) rfl

theorem AtRest.of_stuck (stuck : ∀ w', ¬ Step w w') : AtRest w :=
  fun w' step => (stuck w' step).elim

theorem pushes_eq_nil_of_stuck (stuck : ∀ w', ¬ Step w w') : w.pushes = [] :=
  (AtRest.of_stuck stuck).pushes_eq_nil

theorem drains_eq_nil_of_stuck (stuck : ∀ w', ¬ Step w w') {queue : Queue (Parcel J)}
    (found : w.queues[q]? = some queue) : queue.drains = [] :=
  (AtRest.of_stuck stuck).drains_eq_nil found

/-- A queue that rests has nothing left to do. -/
theorem AtRest.outstanding_eq_nil (rest : AtRest w) (sound : Sound w) {queue : Queue (Parcel J)}
    (found : w.queues[q]? = some queue) : queue.outstanding = [] := by
  obtain ⟨name, queueRun⟩ := sound.runs q queue found
  refine queueRun.accounted.serial.outstanding_eq_nil (rest.drains_eq_nil found) ?_
  rw [sound.waking_eq q queue found, rest.pushes_eq_nil]
  rfl

/-- Where nothing is planned, under way or alive, nobody can take a step. -/
theorem stuck_of_idle (no_plans : ∀ plan ∈ w.plans, plan = []) (no_pushes : w.pushes = [])
    (no_drains : ∀ queue ∈ w.queues, queue.drains = []) (w' : Workshop J) : ¬ Step w w' := by
  have no_phase {q : QueueRef} {i : Nat} {queue : Queue (Parcel J)} {phase : Phase (Parcel J)}
      (found : w.queues[q]? = some queue) : queue.drains[i]? ≠ some phase := by
    rw [no_drains queue (List.mem_of_getElem? found)]
    simp
  intro step
  cases step with
  | call n q job later planned _ _ => cases no_plans _ (List.mem_of_getElem? planned)
  | callInside q i queue parcel target job found executes _ _ => exact no_phase found executes
  | enqueue earlier later target parcel underWay => simp [no_pushes] at underWay
  | wake earlier later target parcel underWay => simp [no_pushes] at underWay
  | start q i queue parcel later found phase _ => exact no_phase found phase
  | findNone q i queue found phase _ => exact no_phase found phase
  | finish q i queue parcel outcome found executes _ => exact no_phase found executes
  | recheck q i queue found phase => exact no_phase found phase

/-! ## Plans -/

theorem callsFrom_begin (w : Workshop J) (n : Nat) (q : QueueRef) (parcel : Parcel J) :
    (w.begin q parcel).callsFrom n = w.callsFrom n ++
      if parcel.source = .outside n then [(q, parcel.job)] else [] := by
  simp only [callsFrom, begin, List.filterMap_append, List.filterMap_cons, List.filterMap_nil]
  split <;> simp_all

/-- A caller from outside makes the pushes of its plan in their order. -/
theorem Step.planned {w' : Workshop J} (step : Step w w') {n : Nat} {left : List (QueueRef × J)}
    (h : w.plans[n]? = some left) :
    ∃ left', w'.plans[n]? = some left' ∧ w.callsFrom n ++ left = w'.callsFrom n ++ left' := by
  cases step with
  | call m q job later planned _ _ =>
      rw [callsFrom_begin]
      by_cases same : m = n
      · subst same
        obtain rfl : left = (q, job) :: later := Option.some.inj (h.symm.trans planned)
        have inside : m < w.plans.length := (List.getElem?_eq_some_iff.1 h).1
        refine ⟨later, ?_, ?_⟩
        · simp [begin, onQueue, inside]
        · simp [callsFrom]
      · refine ⟨left, ?_, ?_⟩
        · simpa [begin, onQueue, List.getElem?_set_ne same] using h
        · simp [callsFrom, same]
  | callInside =>
      rw [callsFrom_begin, if_neg (by simp), List.append_nil]
      exact ⟨left, h, rfl⟩
  | enqueue => exact ⟨left, h, rfl⟩
  | wake => exact ⟨left, h, rfl⟩
  | start => exact ⟨left, h, rfl⟩
  | findNone => exact ⟨left, h, rfl⟩
  | finish => exact ⟨left, h, rfl⟩
  | recheck => exact ⟨left, h, rfl⟩

theorem Run.planned {w' : Workshop J} (run : Run w w') {n : Nat} {left : List (QueueRef × J)}
    (h : w.plans[n]? = some left) :
    ∃ left', w'.plans[n]? = some left' ∧ w.callsFrom n ++ left = w'.callsFrom n ++ left' := by
  induction run with
  | refl => exact ⟨left, h, rfl⟩
  | step _ last ih =>
      obtain ⟨middle, hmiddle, before⟩ := ih
      obtain ⟨left', hleft, after⟩ := last.planned hmiddle
      exact ⟨left', hleft, before.trans after⟩

/-! ## The main theorem -/

/-- However many producers there are, in whatever order they and the drains take their steps,
and whatever comes of the jobs: a queue has at most one drain and executes at most one job,
its flag tells whether a drain is alive, a waiting job has a drain or a producer who has still
to look, jobs start in the order in which they were enqueued and those of one producer in the
order in which it pushed them, and when nobody can take a step every enqueued job has been
started and finished once. -/
theorem run_start_serial {names : List String} {plans : List (List (QueueRef × J))}
    {w : Workshop J} (run : Run (start names plans) w) :
    (∀ q queue, w.queues[q]? = some queue →
      queue.drains.length ≤ 1 ∧ queue.executing.length ≤ 1 ∧
      (queue.running = true ↔ queue.drains ≠ []) ∧
      (queue.waiting ≠ [] →
        queue.drains ≠ [] ∨ ∃ p ∈ w.pushes, p.target = q ∧ p.isEnqueued = true) ∧
      Queue.enqueuedIn (w.eventsOn q) = Queue.startedIn (w.eventsOn q) ++ queue.waiting ∧
      Queue.startedIn (w.eventsOn q) = Queue.finishedIn (w.eventsOn q) ++ queue.executing ∧
      ∀ s, ((Queue.startedIn (w.eventsOn q)).filter (·.source = s)).map Parcel.job <+:
        w.callsTo s q) ∧
    (∀ n plan, plans[n]? = some plan →
      ∃ left, w.plans[n]? = some left ∧ plan = w.callsFrom n ++ left) ∧
    ((∀ w', ¬ Step w w') → ∀ q queue, w.queues[q]? = some queue →
      Queue.startedIn (w.eventsOn q) = Queue.enqueuedIn (w.eventsOn q) ∧
      Queue.finishedIn (w.eventsOn q) = Queue.enqueuedIn (w.eventsOn q)) := by
  have sound := run.sound (sound_start names plans)
  have accounted (q : QueueRef) (queue : Queue (Parcel J)) (found : w.queues[q]? = some queue) :
      Queue.Accounted (w.eventsOn q) queue := by
    obtain ⟨name, queueRun⟩ := sound.runs q queue found
    exact queueRun.accounted
  refine ⟨?_, ?_, ?_⟩
  · intro q queue found
    obtain ⟨serial, henqueued, hstarted⟩ := accounted q queue found
    refine ⟨serial.drains_le_one, ?_, serial.running_iff, ?_, henqueued, hstarted, ?_⟩
    · exact Nat.le_trans (List.length_filterMap_le _ _) serial.drains_le_one
    · intro waiting
      refine (serial.awake waiting).imp_right fun waking => ?_
      rw [sound.waking_eq q queue found, List.countP_pos_iff] at waking
      obtain ⟨p, hp, hat⟩ := waking
      simp only [Push.isAt, Bool.and_eq_true, decide_eq_true_eq, beq_iff_eq] at hat
      exact ⟨p, hp, hat⟩
    · intro s
      rw [sound.calls_eq s q, arrivals, henqueued, List.filter_append, List.map_append,
        List.append_assoc]
      exact List.prefix_append ..
  · intro n plan planned
    obtain ⟨left, hleft, hplan⟩ := run.planned planned
    exact ⟨left, hleft, hplan⟩
  · intro stuck q queue found
    obtain ⟨serial, henqueued, hstarted⟩ := accounted q queue found
    have idle := drains_eq_nil_of_stuck stuck found
    have looked : queue.waking = 0 := by
      rw [sound.waking_eq q queue found, pushes_eq_nil_of_stuck stuck]
      rfl
    have nothing := serial.outstanding_eq_nil idle looked
    obtain ⟨executing, waiting⟩ := List.append_eq_nil_iff.1 nothing
    rw [waiting, List.append_nil] at henqueued
    rw [executing, List.append_nil] at hstarted
    exact ⟨henqueued.symm, hstarted.symm.trans henqueued.symm⟩

/-- Two callers meet on one queue. The first job pushes to another queue and panics, the second
is enqueued while the drain is at work, and its caller looks at the flag when the drain has
already found nothing more. -/
theorem run_start_serial_reentrant :
    ∃ w : Workshop Nat, Run (start ["a", "b"] [[(0, 1)], [(0, 2)]]) w ∧ (∀ w', ¬ Step w w') ∧
      (Queue.finishedIn (w.eventsOn 0)).map Parcel.job = [1, 2] ∧
      (Queue.finishedIn (w.eventsOn 1)).map Parcel.job = [3] := by
  have free {w : Workshop Nat} {s : Source} (h : w.pushes.all (·.parcel.source ≠ s) = true) :
      w.IsFree s := by
    simpa [IsFree] using h
  have run := (Run.refl (start (J := Nat) ["a", "b"] [[(0, 1)], [(0, 2)]]))
    |>.step (.call _ 0 0 1 [] rfl (by decide) (free rfl))
    |>.step (.enqueue _ [] [] 0 ⟨.outside 0, 1⟩ rfl)
    |>.step (.call _ 1 0 2 [] rfl (by decide) (free rfl))
    |>.step (.wake _ [] [⟨0, ⟨.outside 1, 2⟩, false⟩] 0 ⟨.outside 0, 1⟩ rfl)
    |>.step (.start _ 0 0 _ ⟨.outside 0, 1⟩ [] rfl rfl rfl)
    |>.step (.callInside _ 0 0 _ ⟨.outside 0, 1⟩ 1 3 rfl rfl (by decide) (free rfl))
    |>.step (.enqueue _ [] [⟨1, ⟨.inside 0 0, 3⟩, false⟩] 0 ⟨.outside 1, 2⟩ rfl)
    |>.step (.enqueue _ [⟨0, ⟨.outside 1, 2⟩, true⟩] [] 1 ⟨.inside 0 0, 3⟩ rfl)
    |>.step (.wake _ [⟨0, ⟨.outside 1, 2⟩, true⟩] [] 1 ⟨.inside 0 0, 3⟩ rfl)
    |>.step (.finish _ 0 0 _ ⟨.outside 0, 1⟩ (.error (.panic ⟨none⟩)) rfl rfl (free rfl))
    |>.step (.start _ 0 0 _ ⟨.outside 1, 2⟩ [] rfl rfl rfl)
    |>.step (.finish _ 0 0 _ ⟨.outside 1, 2⟩ (.ok ()) rfl rfl (free rfl))
    |>.step (.findNone _ 0 0 _ rfl rfl rfl)
    |>.step (.wake _ [] [] 0 ⟨.outside 1, 2⟩ rfl)
    |>.step (.recheck _ 0 0 _ rfl rfl)
    |>.step (.start _ 1 0 _ ⟨.inside 0 0, 3⟩ [] rfl rfl rfl)
    |>.step (.finish _ 1 0 _ ⟨.inside 0 0, 3⟩ (.error (.error "no")) rfl rfl (free rfl))
    |>.step (.findNone _ 1 0 _ rfl rfl rfl)
    |>.step (.recheck _ 1 0 _ rfl rfl)
  refine ⟨_, run, ?_⟩
  have rest {w : Workshop Nat} (_ : Run (start ["a", "b"] [[(0, 1)], [(0, 2)]]) w) :=
    stuck_of_idle (w := w)
  have stuck := rest run (by decide) rfl (by decide)
  refine ⟨stuck, ?_, ?_⟩
  · rw [((run_start_serial run).2.2 stuck 0 _ rfl).2]
    rfl
  · rw [((run_start_serial run).2.2 stuck 1 _ rfl).2]
    rfl

end Workshop

end ChatHall.Jobs
