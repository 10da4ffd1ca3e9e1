/-
# Tables

Finite maps that keep the order in which their keys first appeared. A table is
a list of pairs whose keys differ; the look-up function is its whole meaning.
-/

namespace ChatHall

/-- A finite map from `κ` to `α`, in the order in which the keys were added. -/
structure Table (κ α : Type) where
  entries : List (κ × α)
  keys_nodup : (entries.map (·.1)).Nodup
  deriving Repr, DecidableEq

namespace Table

variable {κ α : Type}

def empty : Table κ α := ⟨[], List.nodup_nil⟩

instance : EmptyCollection (Table κ α) := ⟨empty⟩

variable [DecidableEq κ]

def find? (t : Table κ α) (k : κ) : Option α :=
  (t.entries.find? fun e => e.1 = k).map (·.2)

def contains (t : Table κ α) (k : κ) : Bool := (t.find? k).isSome

/-- A list of entries with one of them set; a new key goes to the end. -/
def setEntry (k : κ) (a : α) : List (κ × α) → List (κ × α)
  | [] => [(k, a)]
  | e :: rest => if e.1 = k then (k, a) :: rest else e :: setEntry k a rest

/-- Setting an entry adds at most its own key. -/
theorem mem_keys_setEntry (k l : κ) (a : α) (entries : List (κ × α)) :
    l ∈ (setEntry k a entries).map (·.1) ↔ l = k ∨ l ∈ entries.map (·.1) := by
  induction entries with
  | nil => simp [setEntry]
  | cons e rest ih =>
    by_cases h : e.1 = k
    · simp [setEntry, h]
    · simp only [setEntry, h, if_false, List.map_cons, List.mem_cons, ih]
      exact or_left_comm

theorem nodup_keys_setEntry (k : κ) (a : α) (entries : List (κ × α))
    (h : (entries.map (·.1)).Nodup) : ((setEntry k a entries).map (·.1)).Nodup := by
  induction entries with
  | nil => simp [setEntry]
  | cons e rest ih =>
    rw [List.map_cons, List.nodup_cons] at h
    by_cases hk : e.1 = k
    · rw [setEntry, if_pos hk, List.map_cons, List.nodup_cons]
      exact ⟨hk ▸ h.1, h.2⟩
    · rw [setEntry, if_neg hk, List.map_cons, List.nodup_cons, mem_keys_setEntry]
      exact ⟨fun hm => hm.elim hk h.1, ih h.2⟩

/-- The table with the entry of one key set; a new key goes to the end. -/
def insert (t : Table κ α) (k : κ) (a : α) : Table κ α where
  entries := setEntry k a t.entries
  keys_nodup := nodup_keys_setEntry k a t.entries t.keys_nodup

def filter (t : Table κ α) (p : κ × α → Bool) : Table κ α where
  entries := t.entries.filter p
  keys_nodup := t.keys_nodup.sublist (List.filter_sublist.map _)

def erase (t : Table κ α) (k : κ) : Table κ α := t.filter fun e => e.1 ≠ k

def mapValues (t : Table κ α) {β : Type} (f : α → β) : Table κ β where
  entries := t.entries.map fun e => (e.1, f e.2)
  keys_nodup := by
    rw [List.map_map]
    exact t.keys_nodup

/-- The keys, oldest first. -/
def keys (t : Table κ α) : List κ := t.entries.map (·.1)

/-- The stored values, oldest first. -/
def values (t : Table κ α) : List α := t.entries.map (·.2)

def size (t : Table κ α) : Nat := t.entries.length

@[simp]
theorem find?_empty (k : κ) : (∅ : Table κ α).find? k = none := rfl

/-- A look-up after an insertion. -/
theorem find?_insert (t : Table κ α) (k l : κ) (a : α) :
    (t.insert k a).find? l = if l = k then some a else t.find? l := by
  obtain ⟨entries, -⟩ := t
  unfold insert find?
  dsimp only
  induction entries with
  | nil => by_cases h : k = l <;> simp [setEntry, h, eq_comm]
  | cons e rest ih => grind [setEntry]

/-- A look-up after a removal. -/
theorem find?_erase (t : Table κ α) (k l : κ) :
    (t.erase k).find? l = if l = k then none else t.find? l := by
  obtain ⟨entries, -⟩ := t
  unfold erase filter find?
  dsimp only
  induction entries with
  | nil => simp
  | cons e rest ih => grind

/-- A removal never makes a table larger. -/
theorem size_erase_le (t : Table κ α) (k : κ) : (t.erase k).size ≤ t.size :=
  List.length_filter_le _ _

/-- A new entry makes a table larger by one. -/
theorem size_insert_of_find? {t : Table κ α} {k : κ} (absent : t.find? k = none) (a : α) :
    (t.insert k a).size = t.size + 1 := by
  obtain ⟨entries, nodup⟩ := t
  unfold insert size
  unfold find? at absent
  dsimp only at absent ⊢
  clear nodup
  induction entries with
  | nil => rfl
  | cons e rest ih => grind [setEntry]

/-- The removal of an entry makes a table smaller by one, and that of none leaves it. -/
theorem size_erase (t : Table κ α) (k : κ) :
    (t.erase k).size + (t.contains k).toNat = t.size := by
  obtain ⟨entries, nodup⟩ := t
  unfold erase filter size contains find?
  dsimp only
  induction entries with
  | nil => rfl
  | cons e rest ih =>
    rw [List.map_cons, List.nodup_cons] at nodup
    by_cases own : e.1 = k
    · have absent : ∀ f ∈ rest, f.1 ≠ k := fun f mem same =>
        nodup.1 (own.trans same.symm ▸ List.mem_map_of_mem mem)
      have kept : rest.filter (fun f => f.1 ≠ k) = rest :=
        List.filter_eq_self.2 fun f mem => decide_eq_true (absent f mem)
      rw [List.filter_cons_of_neg (by simp [own]), kept, List.find?_cons_of_pos (by simp [own])]
      rfl
    · have later := ih nodup.2
      rw [List.filter_cons_of_pos (by simp [own]), List.find?_cons_of_neg (by simp [own]),
        List.length_cons, List.length_cons]
      omega

theorem size_pos_of_find? {t : Table κ α} {k : κ} (h : (t.find? k).isSome) : 0 < t.size := by
  rw [find?, Option.isSome_map, List.find?_isSome] at h
  obtain ⟨e, mem, -⟩ := h
  exact List.length_pos_of_mem mem

/-- A look-up finds the entries and nothing else. -/
theorem mem_entries_iff {t : Table κ α} {k : κ} {a : α} :
    (k, a) ∈ t.entries ↔ t.find? k = some a := by
  obtain ⟨entries, nodup⟩ := t
  unfold find?
  dsimp only
  induction entries with
  | nil => simp
  | cons e rest ih =>
    rw [List.map_cons, List.nodup_cons] at nodup
    by_cases own : e.1 = k
    · have absent : (k, a) ∉ rest := fun mem => nodup.1 (own ▸ List.mem_map_of_mem mem)
      have found : (e :: rest).find? (fun e => e.1 = k) = some e :=
        List.find?_cons_of_pos (decide_eq_true own)
      rw [List.mem_cons, found, Option.map_some, Option.some.injEq]
      constructor
      · rintro (rfl | mem)
        · rfl
        · exact absurd mem absent
      · rintro rfl
        exact .inl (own ▸ rfl)
    · have passed : (e :: rest).find? (fun e => e.1 = k) = rest.find? fun e => e.1 = k :=
        List.find?_cons_of_neg (by simpa using own)
      rw [List.mem_cons, passed, ← ih nodup.2]
      constructor
      · rintro (rfl | mem)
        · exact absurd rfl own
        · exact mem
      · exact .inr

theorem mem_values_iff {t : Table κ α} {a : α} : a ∈ t.values ↔ ∃ k, t.find? k = some a := by
  simp only [values, List.mem_map, Prod.exists, exists_eq_right, mem_entries_iff]

/-- Values that tell their keys differ. -/
theorem nodup_values {t : Table κ α}
    (tells : ∀ k l a, t.find? k = some a → t.find? l = some a → k = l) : t.values.Nodup := by
  refine List.pairwise_map.2 ((List.pairwise_map.1 t.keys_nodup).imp_of_mem ?_)
  rintro ⟨k, a⟩ ⟨l, b⟩ first second differ rfl
  exact differ (tells k l a (mem_entries_iff.1 first) (mem_entries_iff.1 second))

theorem entries_eq_nil_of_find? {t : Table κ α} (nothing : ∀ k a, t.find? k ≠ some a) :
    t.entries = [] :=
  List.eq_nil_iff_forall_not_mem.2 fun (k, a) mem => nothing k a (mem_entries_iff.1 mem)

theorem entries_eq_singleton_of_find? {t : Table κ α} {k : κ} {a : α} (there : t.find? k = some a)
    (only : ∀ l b, t.find? l = some b → l = k) : t.entries = [(k, a)] := by
  have nodup := t.keys_nodup
  have same (e : κ × α) (mem : e ∈ t.entries) : e = (k, a) := by
    have found := mem_entries_iff.1 mem
    have key := only e.1 e.2 found
    rw [key, there] at found
    exact Prod.ext key (Option.some.inj found).symm
  have mem := mem_entries_iff.2 there
  cases listed : t.entries with
  | nil =>
    rw [listed] at mem
    contradiction
  | cons e rest =>
    rw [listed] at same nodup
    rw [same e List.mem_cons_self] at nodup ⊢
    cases rest with
    | nil => rfl
    | cons f rest =>
      rw [same f (List.mem_cons_of_mem _ List.mem_cons_self)] at nodup
      exact absurd List.mem_cons_self (List.nodup_cons.1 nodup).1

end Table

end ChatHall
