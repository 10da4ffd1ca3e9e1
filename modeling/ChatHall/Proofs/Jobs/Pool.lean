/-
# Look-ups in a pool

What the operations on a pool do to the queues and to the names. A queue, once
made, is there for ever and keeps its name; a name is found as it was last
registered. A pool is serial if each of its queues is.
-/

import ChatHall.Jobs.Pool
import ChatHall.Proofs.Jobs.Serial

namespace ChatHall

theorem getElem?_modify_eq {α : Type} (l : List α) (i k : Nat) (f : α → α) :
    (l.modify i f)[k]? = if i = k then l[k]?.map f else l[k]? := by
  rw [List.getElem?_modify]
  split
  · rfl
  · exact id_map _

theorem getElem?_append_singleton {α : Type} (l : List α) (a : α) (k : Nat) :
    (l ++ [a])[k]? = if k = l.length then some a else l[k]? := by
  rw [List.getElem?_append]
  split
  · next old => rw [if_neg (Nat.ne_of_lt old)]
  · next young =>
      by_cases fresh : k = l.length
      · simp [fresh]
      · have beyond := Nat.lt_of_le_of_ne (Nat.le_of_not_lt young) (Ne.symm fresh)
        rw [if_neg fresh, List.getElem?_eq_none (Nat.le_of_lt beyond)]
        exact List.getElem?_eq_none (Nat.sub_pos_of_lt beyond)

namespace Jobs

namespace Queue

variable {J : Type} {q : Queue J}

@[simp]
theorem name_push (job : J) : (q.push job).name = q.name := by
  rw [Queue.push, Queue.wake]
  split <;> rfl

@[simp]
theorem name_fetch (i : Nat) : (q.fetch i).name = q.name := by
  rw [Queue.fetch]
  split <;> rfl

@[simp]
theorem name_finish (i : Nat) (outcome : Except Failure Unit) :
    (q.finish i outcome).name = q.name := by
  cases outcome <;> rfl

@[simp]
theorem name_recheck (i : Nat) : (q.recheck i).name = q.name := by
  rw [Queue.recheck]
  split <;> rfl

end Queue

namespace Pool

variable {J : Type} {p : Pool J}

/-! ## Queues -/

theorem queue?_modify (q k : QueueRef) (f : Queue J → Queue J) :
    (p.modify q f).queue? k = if q = k then (p.queue? k).map f else p.queue? k :=
  getElem?_modify_eq p.queues q k f

theorem queue?_create (name : String) (k : QueueRef) :
    (p.create name).1.queue? k = if k = p.queues.length then some { name } else p.queue? k :=
  getElem?_append_singleton p.queues _ k

/-- The reference of the next queue belongs to none. -/
theorem queue?_length : p.queue? p.queues.length = none := List.getElem?_eq_none (Nat.le_refl _)

@[simp]
theorem queue?_register (q k : QueueRef) : (p.register q).queue? k = p.queue? k := by
  rw [register]
  split <;> rfl

/-- Only a queue without jobs can come with a look-up. -/
theorem queue?_getOrCreate (name : String) (k : QueueRef) :
    (p.getOrCreate name).1.queue? k = p.queue? k ∨
      p.queue? k = none ∧ (p.getOrCreate name).1.queue? k = some { name } := by
  rw [getOrCreate, insertIfAbsent]
  cases found : p.find? name with
  | some q => exact .inl rfl
  | none =>
      have created := queue?_create (p := p) name k
      by_cases fresh : k = p.queues.length
      · rw [if_pos fresh] at created
        exact .inr ⟨fresh ▸ queue?_length, created⟩
      · rw [if_neg fresh] at created
        exact .inl created

/-- A queue that was there before a look-up is there after it. -/
theorem queue?_getOrCreate_of_some (name : String) {k : QueueRef} {queue : Queue J}
    (found : p.queue? k = some queue) : (p.getOrCreate name).1.queue? k = some queue := by
  rcases queue?_getOrCreate (p := p) name k with same | ⟨missing, -⟩
  · rw [same, found]
  · rw [missing] at found
    contradiction

/-! ## Names -/

theorem find?_getOrCreate (asked name : String) :
    (p.getOrCreate asked).1.find? name =
      if name = asked then some (p.getOrCreate asked).2 else p.find? name := by
  rw [getOrCreate, insertIfAbsent]
  cases found : p.find? asked with
  | some q =>
      by_cases same : name = asked
      · rw [if_pos same, same]
        exact found
      · rw [if_neg same]
  | none => exact Table.find?_insert _ _ _ _

theorem find?_register {q : QueueRef} {queue : Queue J} (found : p.queue? q = some queue)
    (name : String) :
    (p.register q).find? name = if name = queue.name then some q else p.find? name := by
  rw [register, found]
  exact Table.find?_insert _ _ _ _

theorem find?_remove (removed name : String) :
    (p.remove removed).1.find? name = if name = removed then none else p.find? name :=
  Table.find?_erase _ _ _

/-- Every name stands for a queue. -/
def Named (p : Pool J) : Prop := ∀ name q, p.find? name = some q → (p.queue? q).isSome

theorem Named.modify (h : p.Named) (q : QueueRef) (f : Queue J → Queue J) :
    (p.modify q f).Named := by
  intro name k found
  have known := h name k found
  rw [queue?_modify]
  split
  · rw [Option.isSome_map]
    exact known
  · exact known

theorem Named.create (h : p.Named) (created : String) : (p.create created).1.Named := by
  intro name k found
  rw [queue?_create]
  split
  · rfl
  · exact h name k found

/-- What a look-up comes to is a queue. -/
theorem Named.getOrCreate_snd (h : p.Named) (name : String) :
    ((p.getOrCreate name).1.queue? (p.getOrCreate name).2).isSome := by
  rw [Pool.getOrCreate, insertIfAbsent]
  cases found : p.find? name with
  | some q => exact h name q found
  | none =>
      have created := queue?_create (p := p) name p.queues.length
      rw [if_pos rfl] at created
      exact Option.isSome_of_eq_some created

theorem Named.getOrCreate (h : p.Named) (asked : String) : (p.getOrCreate asked).1.Named := by
  intro name k found
  rw [find?_getOrCreate] at found
  split at found
  · obtain rfl := Option.some.inj found
    exact h.getOrCreate_snd asked
  · obtain ⟨queue, known⟩ := Option.isSome_iff_exists.1 (h name k found)
    exact Option.isSome_of_eq_some (queue?_getOrCreate_of_some asked known)

theorem Named.register (h : p.Named) (q : QueueRef) : (p.register q).Named := by
  intro name k found
  rw [queue?_register]
  cases known : p.queue? q with
  | none =>
      rw [Pool.register, known] at found
      exact h name k found
  | some queue =>
      rw [find?_register known] at found
      split at found
      · obtain rfl := Option.some.inj found
        exact Option.isSome_of_eq_some known
      · exact h name k found

theorem Named.remove (h : p.Named) (removed : String) : (p.remove removed).1.Named := by
  intro name k found
  rw [find?_remove] at found
  split at found
  · contradiction
  · exact h name k found

/-! ## Serial pools -/

def Serial (p : Pool J) : Prop := ∀ q queue, p.queue? q = some queue → queue.Serial

theorem Serial.modify (h : p.Serial) {q : QueueRef} {f : Queue J → Queue J}
    (keeps : ∀ queue, p.queue? q = some queue → queue.Serial → (f queue).Serial) :
    (p.modify q f).Serial := by
  intro k queue found
  rw [queue?_modify] at found
  split at found
  · next same =>
      subst same
      obtain ⟨before, known, rfl⟩ := Option.map_eq_some_iff.1 found
      exact keeps before known (h q before known)
  · exact h k queue found

theorem Serial.push (h : p.Serial) (q : QueueRef) (job : J) : (p.push q job).Serial :=
  h.modify fun _ _ serial => serial.push job

theorem Serial.create (h : p.Serial) (name : String) : (p.create name).1.Serial := by
  intro k queue found
  rw [queue?_create] at found
  split at found
  · obtain rfl := Option.some.inj found
    exact Queue.serial_new name
  · exact h k queue found

theorem Serial.getOrCreate (h : p.Serial) (name : String) : (p.getOrCreate name).1.Serial := by
  intro k queue found
  rcases queue?_getOrCreate (p := p) name k with same | ⟨-, fresh⟩
  · exact h k queue (same ▸ found)
  · obtain rfl := Option.some.inj (fresh.symm.trans found)
    exact Queue.serial_new name

theorem Serial.register (h : p.Serial) (q : QueueRef) : (p.register q).Serial := by
  intro k queue found
  rw [queue?_register] at found
  exact h k queue found

theorem Serial.remove (h : p.Serial) (name : String) : (p.remove name).1.Serial := h

end Pool

end Jobs

end ChatHall
