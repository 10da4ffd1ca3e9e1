/-
# Pushes that have returned

Nobody makes two pushes at a time, so what somebody has begun to push is what has
returned and, behind it, at most one push under way. A job whose push has returned is on
its queue.
-/

import ChatHall.Proofs.Jobs.Workshop

namespace ChatHall.Jobs.Workshop

variable {J : Type} {w w' : Workshop J} {s : Source} {q : QueueRef}

/-- All pushes that somebody has begun, in order. -/
def callsOf (w : Workshop J) (s : Source) : List (QueueRef × J) :=
  w.calls.filterMap fun (target, parcel) =>
    if parcel.source = s then some (target, parcel.job) else none

/-- What somebody is in the middle of pushing to a queue. -/
def underWay (w : Workshop J) (s : Source) (q : QueueRef) : List J :=
  (w.pushes.filter fun p => p.target = q && p.parcel.source = s).map (·.parcel.job)

/-- The jobs somebody has pushed to a queue, in order: all that were begun, but for what is
under way. -/
def returned (w : Workshop J) (s : Source) (q : QueueRef) : List J :=
  (w.callsTo s q).take ((w.callsTo s q).length - (w.underWay s q).length)

theorem callsTo_eq (w : Workshop J) (s : Source) (q : QueueRef) :
    w.callsTo s q = (w.callsOf s).filterMap fun (target, job) =>
      if target = q then some job else none := by
  rw [callsTo, callsOf, List.filterMap_filterMap]
  refine congrFun (congrArg List.filterMap (funext fun call => ?_)) w.calls
  obtain ⟨target, parcel⟩ := call
  by_cases own : parcel.source = s <;> by_cases here : target = q <;> simp [own, here]

/-! ## The push under way is the last one -/

/-- Every push under way is the last one that its source has begun. -/
def Recalled (w : Workshop J) : Prop :=
  ∀ p ∈ w.pushes, (w.callsOf p.parcel.source).getLast? = some (p.target, p.parcel.job)

theorem recalled_start (names : List String) (plans : List (List (QueueRef × J))) :
    Recalled (start names plans) := fun _ => List.not_mem_nil.elim

theorem callsOf_begin (w : Workshop J) (q : QueueRef) (parcel : Parcel J) (s : Source) :
    (w.begin q parcel).callsOf s =
      w.callsOf s ++ if parcel.source = s then [(q, parcel.job)] else [] := by
  simp only [callsOf, begin, List.filterMap_append, List.filterMap_cons, List.filterMap_nil]
  split <;> simp_all

theorem Recalled.begin (h : Recalled w) (q : QueueRef) {parcel : Parcel J}
    (free : w.IsFree parcel.source) : Recalled (w.begin q parcel) := by
  intro p mem
  rw [callsOf_begin]
  rcases List.mem_append.1 mem with old | new
  · rw [if_neg (Ne.symm (free p old)), List.append_nil]
    exact h p old
  · obtain rfl := List.mem_singleton.1 new
    rw [if_pos rfl]
    exact List.getLast?_concat

/-- A push that goes on, or returns, leaves the others as they are. -/
theorem Recalled.of_subset (h : Recalled w) (calls : w'.calls = w.calls)
    (old : ∀ p ∈ w'.pushes, ∃ p' ∈ w.pushes, p'.target = p.target ∧ p'.parcel = p.parcel) :
    Recalled w' := by
  intro p mem
  obtain ⟨p', mem', target, parcel⟩ := old p mem
  rw [callsOf, calls, ← target, ← parcel]
  exact h p' mem'

/-- A step begins a push, or it is a step of the pushes under way and of the drains. -/
theorem Step.begins_or_goes_on (step : Step w w') :
    (∃ plans q parcel, q < w.queues.length ∧ w.IsFree parcel.source ∧
      w' = { w with plans }.begin q parcel) ∨
    (w'.calls = w.calls ∧
      ∀ p ∈ w'.pushes, ∃ p' ∈ w.pushes, p'.target = p.target ∧ p'.parcel = p.parcel) := by
  have same {p : Push J} (mem : p ∈ w.pushes) :
      ∃ p' ∈ w.pushes, p'.target = p.target ∧ p'.parcel = p.parcel := ⟨p, mem, rfl, rfl⟩
  cases step with
  | call n q job later planned known free => exact .inl ⟨_, q, _, known, free, rfl⟩
  | callInside q i queue parcel target job found executes known free =>
      exact .inl ⟨w.plans, target, _, known, free, rfl⟩
  | enqueue earlier later target parcel underWay =>
      refine .inr ⟨rfl, fun p mem => ?_⟩
      rcases List.mem_append.1 mem with front | back
      · exact same (underWay ▸ List.mem_append_left _ front)
      · rcases List.mem_cons.1 back with rfl | behind
        · exact ⟨⟨target, parcel, false⟩, underWay ▸ List.mem_append_cons_self, rfl, rfl⟩
        · exact same (underWay ▸ List.mem_append_right _ (List.mem_cons_of_mem _ behind))
  | wake earlier later target parcel underWay =>
      refine .inr ⟨rfl, fun p mem => same (underWay ▸ ?_)⟩
      rcases List.mem_append.1 mem with front | back
      · exact List.mem_append_left _ front
      · exact List.mem_append_right _ (List.mem_cons_of_mem _ back)
  | start => exact .inr ⟨rfl, fun _ => same⟩
  | findNone => exact .inr ⟨rfl, fun _ => same⟩
  | finish => exact .inr ⟨rfl, fun _ => same⟩
  | recheck => exact .inr ⟨rfl, fun _ => same⟩

theorem Recalled.step (h : Recalled w) (step : Step w w') : Recalled w' := by
  rcases step.begins_or_goes_on with ⟨plans, q, parcel, -, free, rfl⟩ | ⟨calls, old⟩
  · have before : Recalled { w with plans } := h
    exact before.begin q free
  · exact h.of_subset calls old

theorem Run.recalled (run : Run w w') (h : Recalled w) : Recalled w' := by
  induction run with
  | refl => exact h
  | step _ last ih => exact ih.step last

/-! ## What has returned is on its queue -/

/-- A source is in the middle of one push at most. -/
theorem Sound.underWay_cases (sound : Sound w) (s : Source) (q : QueueRef) :
    w.underWay s q = [] ∨
      ∃ p ∈ w.pushes, p.target = q ∧ p.parcel.source = s ∧ w.underWay s q = [p.parcel.job] := by
  by_cases someone : ∃ p ∈ w.pushes, p.target = q ∧ p.parcel.source = s
  · obtain ⟨p, mem, target, source⟩ := someone
    obtain ⟨earlier, later, split⟩ := List.append_of_mem mem
    refine .inr ⟨p, mem, target, source, ?_⟩
    have others {front : List (Push J)} (old : ∀ p' ∈ front, p' ∈ earlier ++ later) :
        front.filter (fun p => p.target = q && p.parcel.source = s) = [] := by
      refine List.filter_eq_nil_iff.2 fun p' mem' => ?_
      simp [source ▸ sound.source_ne split (old p' mem')]
    rw [underWay, split, List.filter_append, List.filter_cons, if_pos (by simp [target, source]),
      others fun _ => List.mem_append_left _, others fun _ => List.mem_append_right _]
    rfl
  · refine .inl ?_
    rw [underWay, List.map_eq_nil_iff, List.filter_eq_nil_iff]
    intro p mem own
    simp only [Bool.and_eq_true, decide_eq_true_eq] at own
    exact someone ⟨p, mem, own⟩

/-- What has been begun is what has returned and what is under way. -/
theorem callsTo_eq_returned_append (sound : Sound w) (recalled : Recalled w) (s : Source)
    (q : QueueRef) : w.callsTo s q = w.returned s q ++ w.underWay s q := by
  rw [returned]
  rcases sound.underWay_cases s q with nothing | ⟨p, mem, rfl, rfl, one⟩
  · rw [nothing, List.length_nil, Nat.sub_zero, List.take_length, List.append_nil]
  · have last := recalled p mem
    obtain ⟨front, split⟩ := List.getLast?_eq_some_iff.1 last
    rw [one, callsTo_eq, split, List.filterMap_append]
    simp

theorem length_announced_le (w : Workshop J) (s : Source) (q : QueueRef) :
    (announced w.pushes s q).length ≤ (w.underWay s q).length := by
  rw [announced, underWay, List.length_map, List.length_map, ← List.countP_eq_length_filter,
    ← List.countP_eq_length_filter]
  refine List.countP_mono_left fun p _ own => ?_
  simp only [Push.isAt, Bool.and_eq_true, decide_eq_true_eq] at own ⊢
  exact ⟨own.1.1, own.2⟩

/-- A job whose push has returned is on its queue, and none of its source has overtaken it. -/
theorem returned_prefix_arrivals (sound : Sound w) (recalled : Recalled w) (s : Source)
    (q : QueueRef) : w.returned s q <+: w.arrivals s q := by
  have begun := callsTo_eq_returned_append sound recalled s q
  have enqueued := sound.calls_eq s q
  have here : w.returned s q <+: w.callsTo s q := ⟨_, begun.symm⟩
  have there : w.arrivals s q <+: w.callsTo s q := ⟨_, enqueued.symm⟩
  refine List.prefix_of_prefix_length_le here there ?_
  have lengths := congrArg List.length (begun.symm.trans enqueued)
  have fewer := length_announced_le w s q
  rw [List.length_append, List.length_append] at lengths
  omega

end ChatHall.Jobs.Workshop
