/-
# What a union complains about

The complaints of a union are those of the form, which name nothing, and those about
the tag and the fields. What these name is the tag itself, a field of the union, a tag
that it does not know, or a value that has the wrong type; so they are bounded as soon
as those few kinds of complaints are.
-/

import ChatHall.Json.Union
import ChatHall.Proofs.Json.Blame

namespace ChatHall.Json

variable {δ α : Type} {bad : Cause → Prop} {good : α → Prop} {n : Nat}

/-- What can be repeated of the values beside a tag is bounded by the `n` bytes in which they
stand. -/
def Content.FitsIn (n : Nat) : Content → Prop
  | .list values => (∀ v ∈ values, v.found.FitsIn n) ∧ values.length ≤ n + 1
  | .object entries => ∀ e ∈ entries, e.2.found.FitsIn n

/-! ## Variants -/

namespace Variant

variable (v : Variant δ α)

/-- What a variant may complain about is `bad`; drafts are `fit`. -/
structure Complains (title : String) (n : Nat) (bad : Cause → Prop) (fit : δ → Prop)
    (good : α → Prop) : Prop where
  take : ∀ slot ∈ v.slots, ∀ draft found, fit draft → found.FitsIn n →
    Comes bad fit (slot.take draft found)
  duplicate : ∀ slot ∈ v.slots, bad (.duplicateField slot.name)
  build : ∀ draft, fit draft → Comes (fun name => bad (.missingField name)) good (v.build draft)
  tooMany : ∀ count ≤ v.slots.length + (n + 1),
    bad (.wrongLength count s!"{elementCount v.slots.length} in sequence")
  tooFew : ∀ count < v.slots.length, bad (.wrongLength count
    s!"struct variant {title}::{v.name} with {elementCount v.slots.length}")

variable {v} {title : String} {fit : δ → Prop} (h : v.Complains title n bad fit good)
include h

theorem Complains.complete {draft : δ} (fits : fit draft) : Comes bad good (v.complete draft) := by
  have built := h.build draft fits
  rw [Variant.complete]
  cases outcome : v.build draft with
  | ok a =>
      rw [outcome] at built
      exact built
  | error name =>
      rw [outcome] at built
      exact built

theorem Complains.takeEntries {entries : List (String × Value)}
    (values : ∀ e ∈ entries, e.2.found.FitsIn n) {draft : δ} (fits : fit draft) :
    Comes bad fit (v.takeEntries entries draft) := by
  induction entries generalizing draft with
  | nil => exact fits
  | cons entry later ih =>
      obtain ⟨first, rest⟩ := List.forall_mem_cons.1 values
      rw [Variant.takeEntries]
      cases known : v.slots.find? fun slot => slot.name = entry.1 with
      | none => exact ih rest fits
      | some slot =>
          have listed := List.mem_of_find?_eq_some known
          have named := List.find?_some known
          rw [decide_eq_true_eq] at named
          refine .ite ?_ ((h.take slot listed draft _ fits first).bind fun after => ih rest)
          exact named ▸ h.duplicate slot listed

theorem Complains.takeValues {slots : List (Slot δ)} {done : Nat} {values : List Value}
    (ahead : slots ⊆ v.slots) (count : done + slots.length = v.slots.length)
    (all : ∀ value ∈ values, value.found.FitsIn n)
    (few : done + values.length ≤ v.slots.length + (n + 1)) {draft : δ} (fits : fit draft) :
    Comes bad fit (v.takeValues title slots done values draft) := by
  induction slots generalizing done values draft with
  | nil =>
      rw [Variant.takeValues.eq_def]
      rw [List.length_nil, Nat.add_zero] at count
      refine .ite fits ?_
      rw [count]
      exact h.tooMany _ (count ▸ few)
  | cons slot slots ih =>
      rw [List.length_cons] at count
      obtain ⟨first, later⟩ := List.cons_subset.1 ahead
      cases values with
      | nil => exact h.tooFew done (by omega)
      | cons value values =>
          obtain ⟨front, rest⟩ := List.forall_mem_cons.1 all
          rw [List.length_cons] at few
          rw [Variant.takeValues]
          refine (h.take slot first draft _ fits front).bind fun after good_draft => ?_
          exact ih later (by omega) rest (by omega) good_draft

/-- Whatever stands beside the tag, the variant takes it or has one of its complaints. -/
theorem Complains.ofContent {blank : δ} (fits : fit blank) {content : Content}
    (within : content.FitsIn n) : Comes bad good (v.ofContent title blank content) := by
  cases content with
  | object entries => exact (h.takeEntries within fits).bind fun draft => h.complete
  | list values =>
      refine (h.takeValues (List.Subset.refl _) (Nat.zero_add _) within.1 ?_ fits).bind
        fun draft => h.complete
      have few := within.2
      omega

end Variant

/-! ## Unions -/

namespace Union

open Reader Record

variable (u : Union δ α)

/-- What a union may complain about is `bad`, a scalar in its place excepted. -/
structure Complains (n : Nat) (bad : Cause → Prop) (fit : δ → Prop) (good : α → Prop) : Prop where
  bare : ∀ c, Bare c → bad c
  missing : bad (.missingField u.tag)
  duplicate : bad (.duplicateField u.tag)
  unknown : ∀ name, weight name + 2 ≤ n →
    bad (.unknownVariant name (u.variants.map Variant.name))
  mistyped : ∀ found : Found, found.FitsIn n → (∀ t, found ≠ .scalar (.text t)) →
    bad (.wrongType found "variant identifier")
  blank : fit u.blank
  variants : ∀ v ∈ u.variants, v.Complains u.title n bad fit good

variable {u} {fit : δ → Prop} (h : u.Complains n bad fit good) {s : Bytes}
include h

theorem Complains.yields_readTag (short : s.length ≤ n) :
    Yields bad (fun v => v ∈ u.variants) n (u.readTag s) := by
  refine yields_scalar h.bare short (fun x fits => ?_)
    (h.mistyped .sequence trivial (by simp)) (h.mistyped .map trivial (by simp))
  cases x with
  | text t =>
      have unknown := h.unknown t fits
      rw [Found.name?, Found.text?]
      have is_text : Comes bad (fun name => name = t) (.ok t) := rfl
      refine is_text.bind fun name same => ?_
      subst same
      cases known : (u.variants.map fun v => (v.name, v)).lookup name with
      | some v =>
          obtain ⟨before, behind, split, -⟩ := List.lookup_eq_some_iff.1 known
          have listed : (name, v) ∈ u.variants.map fun v => (v.name, v) := by
            rw [split]
            exact List.mem_append_right _ List.mem_cons_self
          obtain ⟨v', mem, same⟩ := List.mem_map.1 listed
          obtain ⟨-, rfl⟩ := Prod.mk.inj same
          exact mem
      | none =>
          have names : (u.variants.map fun v => (v.name, v)).map (·.1) =
              u.variants.map Variant.name := List.map_map
          exact names ▸ unknown
  | null => exact h.mistyped _ fits (by simp)
  | boolean b => exact h.mistyped _ fits (by simp)
  | integer k => exact h.mistyped _ fits (by simp)
  | floating bits => exact h.mistyped _ fits (by simp)

theorem Complains.yieldsInside_readObject (fuel : Nat) (first : Bool)
    {tag : Option (Variant δ α)} {seen : List (String × Value)} (known : ∀ v ∈ tag, v ∈ u.variants)
    (kept : ∀ e ∈ seen, e.2.found.FitsIn n) (short : s.length ≤ n) :
    YieldsInside bad
      (fun read => (∀ v ∈ read.1, v ∈ u.variants) ∧ Content.FitsIn n (.object read.2)) n
      (u.readObject fuel first tag seen s) := by
  induction fuel generalizing first tag seen s with
  | zero => exact ⟨⟨known, fun e mem => kept e (List.mem_reverse.1 mem)⟩, short⟩
  | succ fuel ih =>
      rw [readObject]
      refine (yieldsInside_placed h.bare (yields_nextKey first short)).bind fun next there => ?_
      refine .ite ?_ ⟨⟨known, fun e mem => kept e (List.mem_reverse.1 mem)⟩, there.2⟩
      refine (yieldsInside_placed h.bare (Text.yields_read there.2)).bind fun key opened => ?_
      refine .ite (.ite h.duplicate ?_) ?_
      · refine (yieldsInside_placed h.bare (yields_colon opened.2)).bind fun _ parted => ?_
        have tagged : YieldsInside bad (fun v => v ∈ u.variants) n (placed (u.readTag _)) :=
          (h.yields_readTag parted.2).mapError fun _ => id
        refine tagged.bind fun read found => ?_
        refine ih false (fun v mem => ?_) kept found.2
        obtain rfl := Option.some.inj mem
        exact found.1
      · refine (yieldsInside_placed h.bare (yields_colon opened.2)).bind fun _ parted => ?_
        refine (yieldsInside_placed h.bare (Value.yields_read depth parted.2)).bind
          fun read found => ?_
        exact ih false known (List.forall_mem_cons.2 ⟨found.1, kept⟩) found.2

theorem Complains.yieldsInside_objectParts (short : s.length ≤ n) :
    YieldsInside bad (fun parts => parts.1 ∈ u.variants ∧ parts.2.FitsIn n) n
      (u.objectParts s) := by
  refine (h.yieldsInside_readObject _ true (fun _ no_tag => absurd no_tag (Option.not_mem_none _))
    (fun _ => List.not_mem_nil.elim) short).bind fun read found => ?_
  obtain ⟨⟨tag, entries⟩, rest⟩ := read
  cases tag with
  | none => exact h.missing
  | some v => exact ⟨⟨found.1.1 v rfl, found.1.2⟩, found.2⟩

theorem Complains.yieldsInside_listParts (short : s.length ≤ n) :
    YieldsInside bad (fun parts => parts.1 ∈ u.variants ∧ parts.2.FitsIn n) n
      (u.listParts s) := by
  refine (yieldsInside_placed h.bare (yields_nextItem true short)).bind fun next there => ?_
  refine .ite ?_ h.missing
  have tagged : YieldsInside bad (fun v => v ∈ u.variants) n (placed (u.readTag _)) :=
    (h.yields_readTag there.2).mapError fun _ => id
  refine tagged.bind fun variant found => ?_
  have values := yields_items (fun s => Value.yields_read depth) (variant.2.length + 1) false
    (fun _ => List.not_mem_nil.elim) found.2
  refine (yieldsInside_placed h.bare values).bind fun read listed => ?_
  obtain ⟨⟨all, few⟩, fits⟩ := listed
  rw [List.length_nil, Nat.zero_add] at few
  exact ⟨⟨found.1, all, Nat.le_trans few (Nat.add_le_add_right found.2 1)⟩, fits⟩

/-- Takes a variant and its content, once they have been read. -/
def fill (u : Union δ α) (parts : (Variant δ α × Content) × Bytes) : Except Fault (α × Bytes) :=
  match parts.1.1.ofContent u.title u.blank parts.1.2 with
  | .ok a => .ok (a, parts.2)
  | .error cause => .error (unplaced cause)

theorem Complains.yields_fill {parts : (Variant δ α × Content) × Bytes}
    (inside : (parts.1.1 ∈ u.variants ∧ parts.1.2.FitsIn n) ∧ parts.2.length ≤ n) :
    Yields bad good n (u.fill parts) := by
  have taken := (h.variants parts.1.1 inside.1.1).ofContent h.blank inside.1.2
  rw [fill]
  cases outcome : parts.1.1.ofContent u.title u.blank parts.1.2 with
  | ok a =>
      rw [outcome] at taken
      exact ⟨taken, inside.2⟩
  | error cause =>
      rw [outcome] at taken
      exact taken

/-- Whatever stands in the place of a union, the union takes it or has one of its complaints, if
those about a scalar in its place are such. -/
theorem Complains.yields_read (short : s.length ≤ n)
    (scalar : ∀ x rest, front s = .ok (.scalar x, rest) → x.FitsIn n →
      bad (.wrongType (.scalar x) u.expected)) : Yields bad good n (u.read s) := by
  have found := yields_front short
  rw [read]
  cases stands : front s with
  | error f =>
      rw [stands] at found
      exact h.bare _ found
  | ok opened =>
      obtain ⟨front, rest⟩ := opened
      rw [stands] at found
      cases front with
      | scalar x => exact scalar x rest stands found.1
      | object =>
          have inside := h.yieldsInside_objectParts found.2
          exact (yields_closing h.bare (fun s => endsWithin_objectEnd) inside).bind fun _ =>
            h.yields_fill
      | list =>
          have inside := h.yieldsInside_listParts found.2
          exact (yields_closing h.bare (fun s => endsWithin_listEnd) inside).bind fun _ =>
            h.yields_fill

/-- Decoding gives a value or a complaint. -/
theorem Complains.comes_decode (short : s.length ≤ n)
    (scalar : ∀ x rest, front s = .ok (.scalar x, rest) → x.FitsIn n →
      bad (.wrongType (.scalar x) u.expected)) : Comes (fun f => bad f.cause) good (u.decode s) :=
  (h.yields_read short scalar).bind fun _ found => comes_finished h.bare found.1

end Union

end ChatHall.Json
