/-
# Whatever becomes of the names

What is true of a register of queues at any moment: every key is the name of its queue,
look-ups of a name that nobody touches come to one queue, and each job is once on the queue
that it was directed to. The names stand for what the accesses have made of them; nobody has
two things to do at a time, and each job is in one place from the look-up to its end.
-/

import ChatHall.Proofs.Jobs.Directory
import ChatHall.Proofs.Jobs.Toil

namespace ChatHall.Jobs

/-- What is kept of a list by a choice that agrees with another one, or is none. -/
theorem filterMap_sublist {α β : Type} {f g : α → Option β} {l : List α}
    (agree : ∀ a ∈ l, f a = none ∨ f a = g a) : (l.filterMap f).Sublist (l.filterMap g) := by
  induction l with
  | nil => exact .slnil
  | cons a later ih =>
      have rest := ih fun b mem => agree b (List.mem_cons_of_mem _ mem)
      rcases agree a List.mem_cons_self with nothing | same
      · rw [List.filterMap_cons_none nothing]
        exact rest.trans ((List.sublist_cons_self a later).filterMap g)
      · rw [List.filterMap_cons, List.filterMap_cons, same]
        cases g a with
        | none => exact rest
        | some b => exact rest.cons_cons b

variable {J : Type}

namespace Access

/-- What a name stands for after an access, unless that does not fit what it stood for. -/
def follow (name : String) (bound : Option QueueRef) : Access J → Option (Option QueueRef)
  | resolved _ asked q _ =>
      if asked ≠ name then some bound
      else if bound = none ∨ bound = some q then some (some q)
      else none
  | taken .. => some bound
  | registered given q => some (if given = name then some q else bound)
  | removed given => some (if given = name then none else bound)

variable {name : String} {accesses : List (Access J)} {bound bound' : Option QueueRef}
  {q : QueueRef}

/-- As long as nobody touches a name it stands for the same queue. -/
theorem follow_of_untouched (untouched : ∀ a ∈ accesses, a.touches name = false)
    (h : accesses.foldlM (follow name) (some q) = some bound) : bound = some q := by
  induction accesses with
  | nil => exact (Option.some.inj h).symm
  | cons a later ih =>
      have kept : a.follow name (some q) = some (some q) ∨ a.follow name (some q) = none := by
        have this := untouched a List.mem_cons_self
        cases a <;> grind [touches, follow]
      rw [List.foldlM_cons] at h
      rcases kept with kept | contradicts
      · rw [kept] at h
        exact ih (fun a mem => untouched a (List.mem_cons_of_mem _ mem)) h
      · rw [contradicts] at h
        contradiction

/-- All look-ups of a name that nobody touches meanwhile come to what it stands for at last. -/
theorem eq_of_resolved (untouched : ∀ a ∈ accesses, a.touches name = false)
    (h : accesses.foldlM (follow name) bound = some bound') {s : Source} {job : Option J}
    (mem : resolved s name q job ∈ accesses) : bound' = some q := by
  obtain ⟨earlier, later, rfl⟩ := List.append_of_mem mem
  rw [List.foldlM_append, Option.bind_eq_bind, Option.bind_eq_some_iff] at h
  obtain ⟨before, -, h⟩ := h
  rw [List.foldlM_cons, Option.bind_eq_bind, Option.bind_eq_some_iff] at h
  obtain ⟨here, resolves, h⟩ := h
  have here : here = some q := by grind [follow]
  subst here
  exact follow_of_untouched
    (fun a mem => untouched a (List.mem_append_right _ (List.mem_cons_of_mem _ mem))) h

end Access

/-- What somebody has still to do, the push and its job included. -/
def Errand.toil : Errand J → Nat
  | making .. => 10
  | holding .. => 9

namespace Directory

variable {d d' : Directory J} {s : Source}

/-! ## The register

The names stand for what the accesses have made of them.
-/

/-- A register with the accesses to it and the names that the queues were made with. -/
structure Registered (names : Table String QueueRef) (accesses : List (Access J))
    (made : List String) : Prop where
  keys : ∀ name q, names.find? name = some q → made[q]? = some name
  follows : ∀ name, accesses.foldlM (Access.follow name) none = some (names.find? name)
  known : ∀ a ∈ accesses, ∀ q, a.queue? = some q → q < made.length

variable {names names' : Table String QueueRef} {accesses : List (Access J)} {made : List String}

theorem Registered.note (h : Registered names accesses made) {a : Access J}
    (keys : ∀ name q, names'.find? name = some q → made[q]? = some name)
    (follows : ∀ name, a.follow name (names.find? name) = some (names'.find? name))
    (known : ∀ q, a.queue? = some q → q < made.length) :
    Registered names' (accesses ++ [a]) made where
  keys
  follows name := by
    rw [List.foldlM_append, h.follows name]
    exact (bind_pure _).trans (follows name)
  known b mem := by
    rcases List.mem_append.1 mem with old | new
    · exact h.known b old
    · exact List.mem_singleton.1 new ▸ known

theorem Registered.resolve (h : Registered names accesses made) {s : Source} {name : String}
    {q : QueueRef} {job : Option J} (found : names.find? name = some q) :
    Registered names (accesses ++ [.resolved s name q job]) made := by
  refine h.note h.keys (fun other => ?_) ?_
  · by_cases same : name = other
    · subst same
      simp [Access.follow, found]
    · simp [Access.follow, same]
  · intro k got
    obtain rfl := Option.some.inj got
    exact (List.getElem?_eq_some_iff.1 (h.keys name q found)).1

theorem Registered.take (h : Registered names accesses made) {s : Source} {q : QueueRef} {job : J}
    (known : q < made.length) : Registered names (accesses ++ [.taken s q job]) made := by
  refine h.note h.keys (fun _ => rfl) ?_
  intro k got
  exact Option.some.inj got ▸ known

theorem Registered.insert_keys (h : Registered names accesses made) {name : String} {q : QueueRef}
    (own : made[q]? = some name) (other : String) (k : QueueRef)
    (found : (names.insert name q).find? other = some k) : made[k]? = some other := by
  rw [Table.find?_insert] at found
  split at found
  · next same => exact same ▸ Option.some.inj found ▸ own
  · exact h.keys other k found

theorem Registered.register (h : Registered names accesses made) {name : String} {q : QueueRef}
    (own : made[q]? = some name) :
    Registered (names.insert name q) (accesses ++ [.registered name q]) made := by
  refine h.note (h.insert_keys own) (fun other => ?_) ?_
  · rw [Table.find?_insert]
    simp [Access.follow, eq_comm]
  · intro k got
    obtain rfl := Option.some.inj got
    exact (List.getElem?_eq_some_iff.1 own).1

theorem Registered.remove (h : Registered names accesses made) (name : String) :
    Registered (names.erase name) (accesses ++ [.removed name]) made := by
  refine h.note (fun other k found => ?_) (fun other => ?_) fun _ no_queue => by contradiction
  · rw [Table.find?_erase] at found
    split at found
    · contradiction
    · exact h.keys other k found
  · rw [Table.find?_erase]
    simp [Access.follow, eq_comm]

theorem Registered.create (h : Registered names accesses made) (name : String) :
    Registered names accesses (made ++ [name]) where
  keys other q found := by
    have old := h.keys other q found
    rwa [List.getElem?_append_left (List.getElem?_eq_some_iff.1 old).1]
  follows := h.follows
  known a mem q got := by
    rw [List.length_append]
    exact Nat.lt_add_right _ (h.known a mem q got)

/-- A new queue is put under a name that stands for nothing. -/
theorem Registered.insert (h : Registered names accesses made) {s : Source} {name : String}
    {job : Option J} (missing : names.find? name = none) :
    Registered (names.insert name made.length)
      (accesses ++ [.resolved s name made.length job]) (made ++ [name]) := by
  have own : (made ++ [name])[made.length]? = some name := List.getElem?_concat_length
  refine (h.create name).note ((h.create name).insert_keys own) (fun other => ?_) ?_
  · rw [Table.find?_insert]
    by_cases same : name = other
    · subst same
      simp [Access.follow, missing]
    · simp [Access.follow, same, Ne.symm same]
  · intro k got
    obtain rfl := Option.some.inj got
    exact (List.getElem?_eq_some_iff.1 own).1

/-! ## The errands -/

/-- Nobody has two things to do at a time, and what somebody was to push is what somebody has
begun to push and what is still in somebody's hands. -/
structure Minded (w : Workshop J) (errands : List (Errand J)) (accesses : List (Access J)) :
    Prop where
  known : ∀ s q job, .holding s q job ∈ errands → q < w.queues.length
  sources_nodup : (errands.map Errand.source).Nodup
  free : ∀ errand ∈ errands, w.IsFree errand.source
  directed_eq : ∀ s q,
    accesses.filterMap (Access.directed s q) = w.callsTo s q ++ heldBy errands s q

variable {w w' : Workshop J} {errands earlier later : List (Errand J)}

theorem Minded.mono (h : Minded w errands accesses)
    (more : w.queues.length ≤ w'.queues.length)
    (pushes : ∀ p' ∈ w'.pushes, ∃ p ∈ w.pushes, p.parcel.source = p'.parcel.source)
    (calls : w'.calls = w.calls) : Minded w' errands accesses where
  known s q job mem := Nat.lt_of_lt_of_le (h.known s q job mem) more
  sources_nodup := h.sources_nodup
  free errand mem p' mem' := by
    obtain ⟨p, old, same⟩ := pushes p' mem'
    exact same ▸ h.free errand mem p old
  directed_eq s q := by
    rw [Workshop.callsTo, calls]
    exact h.directed_eq s q

theorem Minded.addQueue (h : Minded w errands accesses) (name : String) :
    Minded (w.addQueue name) errands accesses :=
  h.mono (Workshop.length_le_addQueue w name) (fun p mem => ⟨p, mem, rfl⟩) rfl

/-- Somebody takes something up who was doing nothing else. -/
theorem Minded.add (h : Minded w errands accesses) {new : List (Errand J)}
    {noted : List (Access J)} (single : new.length ≤ 1) (own : ∀ errand ∈ new, errand.source = s)
    (known : ∀ s q job, .holding s q job ∈ new → q < w.queues.length)
    (no_errand : ∀ errand ∈ errands, errand.source ≠ s) (no_push : w.IsFree s)
    (same : ∀ s q, noted.filterMap (Access.directed s q) = heldBy new s q) :
    Minded w (errands ++ new) (accesses ++ noted) where
  known s q job mem := (List.mem_append.1 mem).elim (h.known s q job) (known s q job)
  sources_nodup := by
    rw [List.map_append, List.nodup_append]
    refine ⟨h.sources_nodup, ?_, ?_⟩
    · cases new with
      | nil => exact List.nodup_nil
      | cons errand others =>
          obtain rfl := List.eq_nil_of_length_eq_zero (Nat.le_zero.1 (Nat.le_of_succ_le_succ single))
          exact List.nodup_singleton _
    · intro source mem source' mem' agree
      obtain ⟨errand, old, rfl⟩ := List.mem_map.1 mem
      obtain ⟨errand', young, rfl⟩ := List.mem_map.1 mem'
      exact no_errand errand old (agree.trans (own errand' young))
  free errand mem := by
    rcases List.mem_append.1 mem with old | young
    · exact h.free errand old
    · exact own errand young ▸ no_push
  directed_eq s q := by
    rw [List.filterMap_append, h.directed_eq, same, heldBy_append, List.append_assoc]

/-- Whoever has got a queue has still to push what was directed there. -/
theorem Minded.get (h : Minded w errands accesses) {a : Access J} {q : QueueRef} {job : Option J}
    (known : q < w.queues.length) (no_errand : ∀ errand ∈ errands, errand.source ≠ s)
    (no_push : w.IsFree s)
    (directed : ∀ s' q', a.directed s' q' = if s = s' ∧ q = q' then job else none) :
    Minded w (errands ++ Errand.next s q job) (accesses ++ [a]) := by
  refine h.add ?_ ?_ ?_ no_errand no_push fun s' q' => ?_
  · cases job <;> simp [Errand.next]
  · intro errand mem
    obtain ⟨job, -, rfl⟩ := List.mem_map.1 mem
    rfl
  · intro s' q' job' mem
    obtain ⟨job, -, same⟩ := List.mem_map.1 mem
    obtain ⟨-, rfl, -⟩ := Errand.holding.inj same
    exact known
  · rw [heldBy_next, List.filterMap_cons, directed]
    by_cases own : s = s' ∧ q = q' <;> cases job <;> simp [own]

/-- An access that directs no job anywhere. -/
theorem Minded.note (h : Minded w errands accesses) {a : Access J}
    (nothing : ∀ s q, a.directed s q = none) : Minded w errands (accesses ++ [a]) where
  known := h.known
  sources_nodup := h.sources_nodup
  free := h.free
  directed_eq s q := by
    rw [List.filterMap_append, List.filterMap_cons, nothing, ← h.directed_eq s q]
    exact List.append_nil _

/-- Nobody else is who is on an errand. -/
theorem Minded.source_ne {errand other : Errand J}
    (h : Minded w (earlier ++ errand :: later) accesses) (mem : other ∈ earlier ++ later) :
    other.source ≠ errand.source := by
  intro same
  have nodup := h.sources_nodup
  rw [List.map_append, List.map_cons, List.nodup_middle, ← List.map_append,
    List.nodup_cons] at nodup
  exact nodup.1 (List.mem_map.2 ⟨other, mem, same⟩)

theorem Minded.free_other {errand other : Errand J}
    (h : Minded w (earlier ++ errand :: later) accesses) (mem : other ∈ earlier ++ later) :
    w.IsFree other.source :=
  h.free other (((List.sublist_cons_self errand later).append_left earlier).subset mem)

/-- Somebody comes to the end of an errand, and begins to push what was in hand. -/
theorem Minded.drop {errand : Errand J} (h : Minded w (earlier ++ errand :: later) accesses)
    (more : w.queues.length ≤ w'.queues.length)
    (free : ∀ other ∈ earlier ++ later, w'.IsFree other.source)
    (calls : ∀ s q, w'.callsTo s q = w.callsTo s q ++ heldBy [errand] s q) :
    Minded w' (earlier ++ later) accesses where
  known s q job mem := by
    have before := ((List.sublist_cons_self errand later).append_left earlier).subset mem
    exact Nat.lt_of_lt_of_le (h.known s q job before) more
  sources_nodup := by
    have nodup := h.sources_nodup
    rw [List.map_append, List.map_cons, List.nodup_middle, ← List.map_append,
      List.nodup_cons] at nodup
    exact nodup.2
  free
  directed_eq s q := by
    have before := h.directed_eq s q
    rw [List.append_cons, heldBy_append, heldBy_append] at before
    rw [before, calls, heldBy_append]
    by_cases own : errand.source = s
    · -- Nothing else is in these hands.
      have nothing : heldBy earlier s q = [] :=
        heldBy_eq_nil (fun other mem => own ▸ h.source_ne (List.mem_append_left _ mem)) q
      rw [nothing, List.nil_append, List.nil_append, List.append_assoc]
    · have nothing : heldBy [errand] s q = [] :=
        heldBy_eq_nil (fun other mem => List.mem_singleton.1 mem ▸ own) q
      rw [nothing, List.append_nil, List.append_nil]

/-! ## The invariant -/

/-- Queues at work, a register that tells, and people who do one thing at a time. -/
structure Kept (d : Directory J) : Prop where
  sound : d.workshop.Sound
  recalled : d.workshop.Recalled
  housed : d.workshop.Housed
  registered : Registered d.names d.accesses (d.workshop.queues.map Queue.name)
  minded : Minded d.workshop d.errands d.accesses

theorem kept_empty : Kept ({} : Directory J) where
  sound := Workshop.sound_start [] []
  recalled := Workshop.recalled_start [] []
  housed := ⟨fun _ => List.not_mem_nil.elim, fun _ => List.not_mem_nil.elim⟩
  registered :=
    ⟨fun _ _ => nofun, fun _ => rfl, fun _ => List.not_mem_nil.elim⟩
  minded :=
    ⟨fun _ _ _ => List.not_mem_nil.elim, List.nodup_nil, fun _ => List.not_mem_nil.elim,
      fun _ _ => rfl⟩

theorem Kept.call (h : Kept d) (call : Call d d') : Kept d' := by
  obtain ⟨sound, recalled, housed, registered, minded⟩ := h
  cases call with
  | find s name q job found ready =>
      have known := (List.getElem?_eq_some_iff.1 (registered.keys name q found)).1
      rw [List.length_map] at known
      exact ⟨sound, recalled, housed, registered.resolve found,
        minded.get known ready.no_errand ready.no_push fun _ _ => rfl⟩
  | miss s name job missing ready =>
      refine ⟨sound, recalled, housed, registered, ?_⟩
      rw [← List.append_nil d.accesses]
      refine minded.add (Nat.le_refl 1) ?_ ?_ ready.no_errand ready.no_push fun _ _ => rfl
      · rintro errand mem
        obtain rfl := List.mem_singleton.1 mem
        rfl
      · intro s' q job' mem
        cases List.mem_singleton.1 mem
  | take s q job known ready =>
      have noted : Minded d.workshop (d.errands ++ Errand.next s q (some job))
          (d.accesses ++ [.taken s q job]) :=
        minded.get known ready.no_errand ready.no_push fun _ _ => rfl
      exact ⟨sound, recalled, housed, registered.take (by rwa [List.length_map]), noted⟩
  | create name =>
      refine ⟨sound.addQueue housed name, recalled, housed.addQueue name, ?_, minded.addQueue name⟩
      exact Workshop.names_addQueue d.workshop name ▸ registered.create name
  | register q queue found =>
      have registers :
          d.pool.register q = ⟨d.workshop.queues, d.names.insert queue.name q⟩ := by
        rw [Pool.register, found]
        rfl
      have own : (d.workshop.queues.map Queue.name)[q]? = some queue.name := by
        rw [List.getElem?_map]
        exact congrArg (Option.map Queue.name) found
      rw [registers]
      exact ⟨sound, recalled, housed, registered.register own, minded.note fun _ _ => rfl⟩
  | remove name =>
      exact ⟨sound, recalled, housed, registered.remove name, minded.note fun _ _ => rfl⟩

theorem Kept.work (h : Kept d) (work : Work d d') : Kept d' := by
  obtain ⟨sound, recalled, housed, registered, minded⟩ := h
  cases work with
  | insert earlier later s name job underWay =>
      rw [underWay] at minded
      have alone (other : Errand J) (mem : other ∈ earlier ++ later) := minded.source_ne mem
      have free := minded.free _ List.mem_append_cons_self
      have rest := minded.drop (Nat.le_refl _) (fun _ => minded.free_other)
        fun s q => (List.append_nil _).symm
      cases found : d.names.find? name with
      | some q =>
          have inserts : d.pool.insertIfAbsent name = (d.pool, q) := by
            simp [Pool.insertIfAbsent, Pool.find?, pool, found]
          have known := (List.getElem?_eq_some_iff.1 (registered.keys name q found)).1
          rw [List.length_map] at known
          rw [inserts]
          exact ⟨sound, recalled, housed, registered.resolve found,
            rest.get known alone free fun _ _ => rfl⟩
      | none =>
          have inserts : d.pool.insertIfAbsent name =
              (⟨(d.workshop.addQueue name).queues, d.names.insert name d.workshop.queues.length⟩,
                d.workshop.queues.length) := by
            simp [Pool.insertIfAbsent, Pool.find?, pool, found, Pool.create, Workshop.addQueue]
          have added : Registered _ (d.accesses ++ [.resolved s name _ job]) _ :=
            registered.insert found
          rw [List.length_map, ← Workshop.names_addQueue] at added
          rw [inserts]
          refine ⟨sound.addQueue housed name, recalled, housed.addQueue name, added, ?_⟩
          refine (rest.addQueue name).get ?_ alone free fun _ _ => rfl
          rw [Workshop.addQueue, List.length_append]
          exact Nat.lt_succ_self _
  | begin earlier later s q job underWay =>
      rw [underWay] at minded
      have free := minded.free _ List.mem_append_cons_self
      have known := minded.known s q job List.mem_append_cons_self
      refine ⟨sound.begin q free, recalled.begin q free, housed.begin known _, ?_, ?_⟩
      · exact (Workshop.names_modify d.workshop.queues q (f := Queue.count) fun _ => rfl) ▸
          registered
      · refine minded.drop ?_ (fun other mem => ?_) fun s' q' => ?_
        · exact Nat.le_of_eq (List.length_modify ..).symm
        · intro p mem'
          rcases List.mem_append.1 mem' with old | new
          · exact minded.free_other mem p old
          · obtain rfl := List.mem_singleton.1 new
            exact (minded.source_ne mem).symm
        · rw [Workshop.callsTo_begin]
          by_cases here : q = q' <;> by_cases own : s = s' <;>
            simp [heldBy, Errand.held, here, own]
  | proceed w step calls acts =>
      refine ⟨sound.step step, recalled.step step, housed.step step, step.names_eq ▸ registered, ?_⟩
      rcases step.begins_or_goes_on with ⟨plans, q, parcel, -, -, rfl⟩ | ⟨-, old⟩
      · exact absurd (congrArg List.length calls) (by simp [Workshop.begin])
      · refine minded.mono (Nat.le_of_eq step.length_queues.symm) (fun p mem => ?_) calls
        obtain ⟨p', mem', -, same⟩ := old p mem
        exact ⟨p', mem', congrArg Parcel.source same⟩

theorem Run.kept (run : Run d d') (h : Kept d) : Kept d' := by
  induction run with
  | refl => exact h
  | call _ last ih => exact ih.call last
  | work _ last ih => exact ih.work last

/-- What has been seen of the queues is not taken back. -/
theorem Run.eventsOn_prefix (run : Run d d') (q : QueueRef) :
    d.workshop.eventsOn q <+: d'.workshop.eventsOn q := by
  induction run with
  | refl => exact List.prefix_refl _
  | call _ last ih =>
      refine ih.trans ?_
      cases last <;> exact List.prefix_refl _
  | work _ last ih =>
      refine ih.trans ?_
      cases last with
      | insert => exact List.prefix_refl _
      | begin => exact (List.prefix_append _ [_]).filterMap _
      | proceed w step => exact step.eventsOn_prefix q

/-- An errand can always go on. -/
theorem errands_eq_nil_of_rest (rest : ∀ d', ¬ Work d d') : d.errands = [] := by
  cases underWay : d.errands with
  | nil => rfl
  | cons errand later =>
      exfalso
      cases errand with
      | making s name job => exact rest _ (.insert d [] later s name job underWay)
      | holding s q job => exact rest _ (.begin d [] later s q job underWay)

/-! ## Everything comes to rest -/

def toil (d : Directory J) : Nat := d.workshop.toil + (d.errands.map Errand.toil).sum

theorem sum_toil_next (s : Source) (q : QueueRef) (job : Option J) :
    ((Errand.next s q job).map Errand.toil).sum ≤ 9 := by
  cases job with
  | none => exact Nat.zero_le _
  | some job => exact Nat.le_refl _

/-- A new queue has nothing to do. -/
theorem toil_insertIfAbsent (d : Directory J) (name : String) :
    (d.withPool (d.pool.insertIfAbsent name).1).workshop.toil = d.workshop.toil := by
  cases found : d.names.find? name with
  | some q => simp [Pool.insertIfAbsent, Pool.find?, pool, found, withPool]
  | none =>
      simp [Pool.insertIfAbsent, Pool.find?, pool, found, Pool.create, withPool, Workshop.toil,
        Queue.toil]

/-- All work on what was taken up makes what is left less. -/
theorem Kept.toil_lt (h : Kept d) (work : Work d d') : d'.toil < d.toil := by
  cases work with
  | insert earlier later s name job underWay =>
      have more := sum_toil_next s (d.pool.insertIfAbsent name).2 job
      have same := toil_insertIfAbsent d name
      simp only [toil, resolve, note, underWay, List.map_append, List.map_cons, List.sum_append,
        List.sum_cons, Errand.toil]
      omega
  | begin earlier later s q job underWay =>
      have known := h.minded.known s q job (underWay ▸ List.mem_append_cons_self)
      have begun := Workshop.toil_begin known ⟨s, job⟩
      simp only [toil, begun, underWay, List.map_append, List.map_cons, List.sum_append,
        List.sum_cons, Errand.toil]
      omega
  | proceed w step calls acts =>
      exact Nat.add_lt_add_right (h.sound.toil_lt h.housed step calls) _

/-- Nobody can work for ever on what was taken up. -/
theorem Kept.acc (h : Kept d) : Acc (fun after before => Work before after) d := by
  generalize bound : d.toil = n
  induction n using Nat.strongRecOn generalizing d with
  | ind n ih =>
      subst bound
      exact .intro d fun after work => ih _ (h.toil_lt work) (h.work work) rfl

/-! ## What a directory is good for -/

/-- What is true of a directory at any moment. -/
structure Faithful (d : Directory J) : Prop where
  /-- Every key is the name of its queue. -/
  keys : ∀ entry ∈ d.names.entries,
    (d.workshop.queues[entry.2]?).map Queue.name = some entry.1
  /-- Two look-ups of a name come to one queue if nobody touched the name in between. -/
  same_queue : ∀ earlier between later s s' name q q' job job',
    d.accesses = earlier ++ .resolved s name q job :: between ++
      .resolved s' name q' job' :: later →
    (∀ a ∈ between, a.touches name = false) → q = q'
  /-- Whoever pushes has got a queue that there is. -/
  known : ∀ a ∈ d.accesses, ∀ q, a.queue? = some q → q < d.workshop.queues.length
  /-- Each job is once where it was directed to: it has ended there, or it is executed, waits,
  is about to be enqueued, or is still in the hands of who got the queue. -/
  directed_eq : ∀ q queue, d.workshop.queues[q]? = some queue → ∀ s,
    d.directedTo s q =
      ((Queue.finishedIn (d.workshop.eventsOn q) ++ queue.executing ++ queue.waiting).filter
        (·.source = s)).map Parcel.job ++
      Workshop.announced d.workshop.pushes s q ++ heldBy d.errands s q
  /-- A queue runs one job at a time, in the order in which they were enqueued, and what was
  pushed before is on it. -/
  serial : ∀ q queue, d.workshop.queues[q]? = some queue → queue.executing.length ≤ 1 ∧
    Queue.enqueuedIn (d.workshop.eventsOn q) =
      Queue.startedIn (d.workshop.eventsOn q) ++ queue.waiting ∧
    Queue.startedIn (d.workshop.eventsOn q) =
      Queue.finishedIn (d.workshop.eventsOn q) ++ queue.executing ∧
    ∀ s, d.workshop.callsTo s q = d.workshop.returned s q ++ d.workshop.underWay s q ∧
      d.workshop.returned s q <+:
        ((Queue.enqueuedIn (d.workshop.eventsOn q)).filter (·.source = s)).map Parcel.job
  /-- Jobs that are pushed by a name that nobody touches meanwhile go to one queue, in the order
  in which they are pushed. -/
  in_turn : ∀ earlier between later name, d.accesses = earlier ++ between ++ later →
    (∀ a ∈ between, a.touches name = false) →
    ∃ q, (∀ s q' job, .resolved s name q' job ∈ between → q' = q) ∧
      ∀ s, (between.filterMap (Access.named s name)).Sublist (d.directedTo s q)

theorem Kept.bound_eq (h : Kept d) {earlier between later : List (Access J)} {name : String}
    (split : d.accesses = earlier ++ between ++ later)
    (untouched : ∀ a ∈ between, a.touches name = false) :
    ∃ bound, ∀ s q job, .resolved s name q job ∈ between → bound = some q := by
  have follows := h.registered.follows name
  rw [split, List.foldlM_append, Option.bind_eq_bind, Option.bind_eq_some_iff] at follows
  obtain ⟨bound, follows, -⟩ := follows
  rw [List.foldlM_append, Option.bind_eq_bind, Option.bind_eq_some_iff] at follows
  obtain ⟨before, -, follows⟩ := follows
  exact ⟨bound, fun s q job mem => Access.eq_of_resolved untouched follows mem⟩

theorem Kept.upright (h : Kept d) : Faithful d where
  keys entry mem := by
    rw [← List.getElem?_map]
    exact h.registered.keys entry.1 entry.2 (Table.mem_entries_iff.1 mem)
  same_queue earlier between later s s' name q q' job job' split untouched := by
    have segment : d.accesses = earlier ++
        (.resolved s name q job :: between ++ [.resolved s' name q' job']) ++ later := by
      simpa using split
    have still : ∀ a ∈ Access.resolved s name q job :: between ++ [.resolved s' name q' job'],
        a.touches name = false := by
      intro a mem
      rcases List.mem_append.1 mem with mem | mem
      · rcases List.mem_cons.1 mem with rfl | mem
        · rfl
        · exact untouched a mem
      · obtain rfl := List.mem_singleton.1 mem
        rfl
    obtain ⟨bound, same⟩ := h.bound_eq segment still
    have first := same s q job (List.mem_append_left _ List.mem_cons_self)
    have second := same s' q' job' (List.mem_append_right _ List.mem_cons_self)
    exact Option.some.inj (first.symm.trans second)
  known a mem q got := by
    have known := h.registered.known a mem q got
    rwa [List.length_map] at known
  directed_eq q queue found s := by
    obtain ⟨name, run⟩ := h.sound.runs q queue found
    obtain ⟨-, enqueued, started⟩ := run.accounted
    rw [directedTo, h.minded.directed_eq, h.sound.calls_eq s q, Workshop.arrivals, enqueued, started]
  serial q queue found := by
    obtain ⟨name, run⟩ := h.sound.runs q queue found
    obtain ⟨serial, enqueued, started⟩ := run.accounted
    refine ⟨?_, enqueued, started, fun s => ⟨?_, ?_⟩⟩
    · exact Nat.le_trans (List.length_filterMap_le _ _) serial.drains_le_one
    · exact Workshop.callsTo_eq_returned_append h.sound h.recalled s q
    · exact Workshop.returned_prefix_arrivals h.sound h.recalled s q
  in_turn earlier between later name split untouched := by
    obtain ⟨bound, same⟩ := h.bound_eq split untouched
    have agree {s : Source} {q : QueueRef} {job : Option J}
        (mem : .resolved s name q job ∈ between) : q = bound.getD 0 := by
      rw [same s q job mem]
      rfl
    refine ⟨bound.getD 0, fun s q job mem => agree mem, fun s => ?_⟩
    have part : (between.filterMap (Access.directed s (bound.getD 0))).Sublist
        (d.directedTo s (bound.getD 0)) := by
      rw [directedTo, split, List.append_assoc]
      exact ((List.sublist_append_left ..).trans (List.sublist_append_right ..)).filterMap _
    refine List.Sublist.trans (filterMap_sublist fun a mem => ?_) part
    cases a with
    | resolved source asked q job =>
        by_cases own : source = s ∧ asked = name
        · obtain ⟨rfl, rfl⟩ := own
          right
          simp [Access.named, Access.directed, agree mem]
        · exact .inl (if_neg own)
    | _ => exact .inl rfl

/-- Where nobody is on an errand, nothing is pushed and no drain is alive, nothing can go on. -/
theorem rest_of_idle (no_errands : d.errands = []) (no_plans : d.workshop.plans = [])
    (no_pushes : d.workshop.pushes = []) (no_drains : ∀ queue ∈ d.workshop.queues, queue.drains = [])
    (d' : Directory J) : ¬ Work d d' := by
  intro work
  cases work with
  | insert earlier later s name job underWay => simp [no_errands] at underWay
  | begin earlier later s q job underWay => simp [no_errands] at underWay
  | proceed w step =>
      refine Workshop.stuck_of_idle ?_ no_pushes no_drains w step
      rw [no_plans]
      exact fun _ => List.not_mem_nil.elim

/-- Whatever is done with queues by name and with queues at hand, and in whatever order the
steps of all that come: every key is the name of its queue, look-ups between which nobody touches
the name come to one queue, and every job is once where it was directed to, whatever becomes of
the name before it is pushed or while it waits. A queue runs its jobs one at a time in the order
in which they were enqueued, which nothing changes later. What was taken up comes to rest, and
then every job has been run, once, on the queue that it was directed to. -/
theorem run_faithful (run : Run {} d) :
    Faithful d ∧
    (∀ d', Run d d' → ∀ q, Queue.enqueuedIn (d.workshop.eventsOn q) <+:
      Queue.enqueuedIn (d'.workshop.eventsOn q)) ∧
    Acc (fun after before => Work before after) d ∧
    ((∀ d', ¬ Work d d') → ∀ q queue, d.workshop.queues[q]? = some queue → ∀ s,
      d.directedTo s q = ((Queue.finishedIn (d.workshop.eventsOn q)).filter
        (·.source = s)).map Parcel.job) := by
  have kept := run.kept kept_empty
  refine ⟨kept.upright, fun d' more q => (more.eventsOn_prefix q).filterMap _, kept.acc, ?_⟩
  intro rest q queue found s
  have no_errands : d.errands = [] := errands_eq_nil_of_rest rest
  have at_rest : d.workshop.AtRest := by
    intro w step calls
    refine rest _ (.proceed d w step calls ?_)
    rw [no_errands]
    exact fun _ => List.not_mem_nil.elim
  obtain ⟨executing, waiting⟩ :=
    List.append_eq_nil_iff.1 (at_rest.outstanding_eq_nil kept.sound found)
  rw [kept.upright.directed_eq q queue found, executing, waiting, at_rest.pushes_eq_nil,
    no_errands]
  simp [Workshop.announced, heldBy]

/-- The name is given to another queue between the first look-up and the push, and taken away
while both jobs are on their way. -/
theorem run_faithful_replaced :
    ∃ d : Directory Nat, Run {} d ∧ (∀ d', ¬ Work d d') ∧ d.names.entries = [] ∧
      ((Queue.finishedIn (d.workshop.eventsOn 0)).filter (·.source = .outside 0)).map
        Parcel.job = [1] ∧
      ((Queue.finishedIn (d.workshop.eventsOn 1)).filter (·.source = .outside 1)).map
        Parcel.job = [2] := by
  have free {w : Workshop Nat} {s : Source} (h : w.pushes.all (·.parcel.source ≠ s) = true) :
      w.IsFree s := by
    simpa [Workshop.IsFree] using h
  have ready {d : Directory Nat} {n : Nat}
      (h : d.errands.all (·.source ≠ .outside n) = true)
      (h' : d.workshop.pushes.all (·.parcel.source ≠ .outside n) = true) :
      d.IsReady (.outside n) := ⟨trivial, by simpa using h, free h'⟩
  have outside {d : Directory Nat} {w : Workshop Nat}
      (h : d.errands.all (fun errand => errand.source = .outside 0 ∨ errand.source = .outside 1) = true) :
      ∀ errand ∈ d.errands, Acts w errand.source := by
    intro errand mem
    have who := List.all_eq_true.1 h errand mem
    simp only [decide_eq_true_eq] at who
    rcases who with who | who <;> rw [who] <;> trivial
  have run := (Run.refl ({} : Directory Nat))
    |>.call (.miss _ (.outside 0) "a" (some 1) rfl (ready rfl rfl))
    |>.work (.insert _ [] [] (.outside 0) "a" (some 1) rfl)
    |>.call (.create _ "a")
    |>.call (.register _ 1 _ rfl)
    |>.call (.find _ (.outside 1) "a" 1 (some 2) rfl (ready rfl rfl))
    |>.work (.begin _ [] [.holding (.outside 1) 1 2] (.outside 0) 0 1 rfl)
    |>.call (.remove _ "a")
    |>.work (.proceed _ _ (.enqueue _ [] [] 0 ⟨.outside 0, 1⟩ rfl) rfl (outside rfl))
    |>.work (.begin _ [] [] (.outside 1) 1 2 rfl)
    |>.work (.proceed _ _ (.wake _ [] [⟨1, ⟨.outside 1, 2⟩, false⟩] 0 ⟨.outside 0, 1⟩ rfl) rfl
      (outside rfl))
    |>.work (.proceed _ _ (.enqueue _ [] [] 1 ⟨.outside 1, 2⟩ rfl) rfl (outside rfl))
    |>.work (.proceed _ _ (.wake _ [] [] 1 ⟨.outside 1, 2⟩ rfl) rfl (outside rfl))
    |>.work (.proceed _ _ (.start _ 1 0 _ ⟨.outside 1, 2⟩ [] rfl rfl rfl) rfl (outside rfl))
    |>.work (.proceed _ _ (.start _ 0 0 _ ⟨.outside 0, 1⟩ [] rfl rfl rfl) rfl (outside rfl))
    |>.work (.proceed _ _ (.finish _ 0 0 _ ⟨.outside 0, 1⟩ (.ok ()) rfl rfl (free rfl)) rfl
      (outside rfl))
    |>.work (.proceed _ _ (.finish _ 1 0 _ ⟨.outside 1, 2⟩ (.error (.panic ⟨none⟩)) rfl rfl
      (free rfl)) rfl (outside rfl))
    |>.work (.proceed _ _ (.findNone _ 0 0 _ rfl rfl rfl) rfl (outside rfl))
    |>.work (.proceed _ _ (.recheck _ 0 0 _ rfl rfl) rfl (outside rfl))
    |>.work (.proceed _ _ (.findNone _ 1 0 _ rfl rfl rfl) rfl (outside rfl))
    |>.work (.proceed _ _ (.recheck _ 1 0 _ rfl rfl) rfl (outside rfl))
  have idle {d : Directory Nat} (_ : Run {} d) := rest_of_idle (d := d)
  have rest := idle run rfl rfl rfl (by decide)
  refine ⟨_, run, rest, rfl, ?_, ?_⟩
  · exact ((run_faithful run).2.2.2 rest 0 _ rfl (.outside 0)).symm
  · exact ((run_faithful run).2.2.2 rest 1 _ rfl (.outside 1)).symm

end Directory

end ChatHall.Jobs
