/-
# Anchors name the first sort keys

The check of an anchor counts its entries and looks at each of its keys: there is at least one
entry, there are no more than sort keys, and every key is the field of one of as many sort keys as
there are entries.  That no such field is left out is not looked at.  It follows by counting, since
the keys of a map are distinct (`perm_leadingFields`), and so it does where fields are repeated: a
run of sort keys in which a field comes twice fits no anchor.

**`Slice.check_iff_leading`** says which slices pass, with which error the others are refused, and
what a slice that passed can rely on: `anchorTuple?` and `compareLeading?` are the tuple of an anchor
and the comparison with it for a reader who gives up where something is missing, and they never
do.  In particular no null stands in for a value that the anchor does not give.
-/
import GraphQuery.Proofs.Entries
import GraphQuery.Proofs.Ordering.Anchors
import Mathlib.Data.List.Perm.Subperm

namespace GraphQuery

variable {α : Type} {order : List OrderKey} {a : Anchor}

/-! ## 1. One anchor -/

/-- The keys of the anchor are the fields of the first sort keys, as many as it has entries. -/
structure NamesLeading (order : List OrderKey) (a : Anchor) : Prop where
  pos : 1 ≤ a.length
  length_le : a.length ≤ order.length
  keys : ∀ field, field ∈ Keyed.keys a ↔ field ∈ (order.take a.length).map OrderKey.field

theorem length_leadingFields (h : a.length ≤ order.length) :
    (leadingFields order a).length = a.length := by
  rw [leadingFields, List.length_map, List.length_take, Nat.min_eq_left h]

/-- **Distinct keys that lie among as many fields are all of them.** -/
theorem perm_leadingFields (hmap : Keyed.Sorted a) (hle : a.length ≤ order.length)
    (hsub : Keyed.keys a ⊆ leadingFields order a) :
    (Keyed.keys a).Perm (leadingFields order a) := by
  have hlength : (leadingFields order a).length = (Keyed.keys a).length := by
    rw [length_leadingFields hle, Keyed.keys, List.length_map]
  exact (List.subperm_of_subset hmap.nodup hsub).perm_of_length_le (Nat.le_of_eq hlength)

theorem checkAnchor_iff_namesLeading (hmap : Keyed.Sorted a) :
    checkAnchor order a = .ok () ↔ NamesLeading order a := by
  rw [checkAnchor_eq_ok_iff]
  constructor
  · rintro ⟨hpos, hle, hsub⟩
    exact ⟨hpos, hle, fun _ => (perm_leadingFields hmap hle hsub).mem_iff⟩
  · intro h
    exact ⟨h.pos, h.length_le, fun key hkey => (h.keys key).mp hkey⟩

theorem exists_fault_of_checkAnchor (h : checkAnchor order a ≠ .ok ()) :
    ∃ fault, checkAnchor order a = .error (.invalidAnchor fault) := by
  unfold checkAnchor at h ⊢
  split at h
  · next hlength => exact ⟨_, if_pos hlength⟩
  · next hlength =>
    rw [if_neg hlength]
    split at h
    · exact ⟨_, rfl⟩
    · exact absurd rfl h

/-! ## 2. Nothing is missing -/

/-- The first items of a list, if there are as many as asked for. -/
def leading? (n : Nat) (xs : List α) : Option (List α) :=
  if n ≤ xs.length then some (xs.take n) else none

/-- The tuple of an anchor, if there are sort keys for all of its entries and it has a value for
each of them. -/
def anchorTuple? (order : List OrderKey) (a : Anchor) : Option (List Value) := do
  let keys ← leading? a.length order
  keys.mapM fun k => Keyed.get? k.field a

/-- The comparison of a tuple with an anchor, if the anchor has a tuple and the other one is no
shorter. -/
def compareLeading? (order : List OrderKey) (tuple : List Value) (a : Anchor) :
    Option Ordering := do
  let bound ← anchorTuple? order a
  let part ← leading? bound.length tuple
  return compareTuples order part bound

theorem leading?_eq {n : Nat} {xs : List α} (h : n ≤ xs.length) :
    leading? n xs = some (xs.take n) := if_pos h

/-- Values that are all there are read without substitutes. -/
theorem mapM_get?_eq {keys : List OrderKey} (h : ∀ k ∈ keys, k.field ∈ Keyed.keys a) :
    (keys.mapM fun k => Keyed.get? k.field a) =
      some (keys.map fun k => (Keyed.get? k.field a).getD .null) := by
  induction keys with
  | nil => rfl
  | cons k keys ih =>
    obtain ⟨hk, hkeys⟩ := List.forall_mem_cons.mp h
    obtain ⟨v, hv⟩ := Option.isSome_iff_exists.mp (Keyed.contains_iff.mpr hk)
    rw [List.mapM_cons, ih hkeys, List.map_cons, hv]
    rfl

theorem NamesLeading.anchorTuple?_eq (h : NamesLeading order a) :
    anchorTuple? order a = some (anchorTuple order a) := by
  rw [anchorTuple?, leading?_eq h.length_le, Option.bind_eq_bind, Option.bind_some, anchorTuple,
    leadingFields, List.map_map]
  exact mapM_get?_eq fun k hk => (h.keys k.field).mpr (List.mem_map_of_mem hk)

theorem NamesLeading.compareLeading?_eq (h : NamesLeading order a) (key : α → String → Value)
    (x : α) :
    compareLeading? order (tupleOf key order x) a =
      some (compareTuples order (tupleOf key order x) (anchorTuple order a)) := by
  have hfits : (anchorTuple order a).length ≤ (tupleOf key order x).length := by
    rw [length_tupleOf]
    exact Nat.le_trans (length_anchorTuple_le order a) h.length_le
  rw [compareLeading?, h.anchorTuple?_eq, Option.bind_eq_bind, Option.bind_some, leading?_eq hfits,
    Option.bind_some, compareTuples_take order (Nat.le_refl _)]
  rfl

/-! ## 3. Slices -/

namespace Slice

/-- With an order, a slice is refused for an anchor that does not fit it. -/
theorem exists_fault_of_check {s : Slice} (horder : order ≠ []) (h : s.check order ≠ .ok ()) :
    ∃ fault, s.check order = .error (.invalidAnchor fault) := by
  rw [check_of_ne_nil horder] at h ⊢
  cases hcheck : s.anchors.forM (checkAnchor order) with
  | ok => exact absurd hcheck h
  | error e =>
    obtain ⟨a, -, ha⟩ := exists_error_of_forM hcheck
    have hne : checkAnchor order a ≠ .ok () := by simp [ha]
    obtain ⟨fault, hfault⟩ := exists_fault_of_checkAnchor hne
    rw [ha] at hfault
    exact ⟨fault, hfault⟩

/-- **Which slices fit an order.**  Either there is no anchor, or there is an order and each anchor
names its first sort keys, no more and no fewer.  Anchors without an order have an error of their
own, and every other refusal is that of an anchor.  Where the slice fits, every value that a
comparison with an anchor asks for is there. -/
theorem check_iff_leading (key : α → String → Value) (order : List OrderKey) (s : Slice)
    (hmaps : ∀ a ∈ s.anchors, Keyed.Sorted a) :
    (s.check order = .ok () ↔
      s.anchors = [] ∨ order ≠ [] ∧ ∀ a ∈ s.anchors, NamesLeading order a) ∧
    (s.check order = .error .anchorWithoutOrder ↔ s.anchors ≠ [] ∧ order = []) ∧
    (s.check order ≠ .ok () → s.check order ≠ .error .anchorWithoutOrder →
      ∃ fault, s.check order = .error (.invalidAnchor fault)) ∧
    (s.check order = .ok () → ∀ a ∈ s.anchors,
      anchorTuple? order a = some (anchorTuple order a) ∧
      ∀ x : α, compareLeading? order (tupleOf key order x) a =
        some (compareTuples order (tupleOf key order x) (anchorTuple order a))) := by
  have hnames : ∀ a ∈ s.anchors, (checkAnchor order a = .ok () ↔ NamesLeading order a) :=
    fun a ha => checkAnchor_iff_namesLeading (hmaps a ha)
  have hok : s.check order = .ok () ↔ ∀ a ∈ s.anchors, NamesLeading order a := by
    rw [check_eq_ok_iff]
    exact forall₂_congr hnames
  refine ⟨?_, ?_, ?_, ?_⟩
  · rw [hok]
    constructor
    · intro h
      rcases List.eq_nil_or_concat s.anchors with hnil | ⟨_, a, ha⟩
      · exact Or.inl hnil
      · have hmem : a ∈ s.anchors := by simp [ha]
        exact Or.inr ⟨ne_nil_of_checkAnchor ((hnames a hmem).mpr (h a hmem)), h⟩
    · rintro (hnil | ⟨-, h⟩)
      · simp [hnil]
      · exact h
  · by_cases horder : order = []
    · subst horder
      by_cases hnil : s.anchors = [] <;> simp [check_nil, hnil]
    · simp only [horder, and_false, iff_false]
      intro herror
      obtain ⟨fault, hfault⟩ := exists_fault_of_check (s := s) horder (by simp [herror])
      simp [herror] at hfault
  · intro hne hwithout
    by_cases horder : order = []
    · subst horder
      by_cases hnil : s.anchors = [] <;> simp [check_nil, hnil] at hne hwithout
    · exact exists_fault_of_check horder hne
  · intro h a ha
    have hleading := hok.mp h a ha
    exact ⟨hleading.anchorTuple?_eq, hleading.compareLeading?_eq key⟩

/-- Two anchors for the first keys of an order in which a field comes twice. -/
theorem check_iff_leading_ages :
    let order : List OrderKey := [⟨"age", .desc⟩, ⟨"name", .asc⟩, ⟨"age", .asc⟩]
    let s : Slice :=
      { before := some [("age", .int 30), ("name", .string "Bob")], after := some [("age", .int 40)] }
    (∀ a ∈ s.anchors, Keyed.Sorted a) ∧ s.check order = .ok () ∧
      (∀ a ∈ s.anchors, NamesLeading order a) ∧
      ∀ a ∈ s.anchors, ∀ x ∈ ages, compareLeading? order (tupleOf Row.valueAt order x) a =
        some (compareTuples order (tupleOf Row.valueAt order x) (anchorTuple order a)) := by
  intro order s
  have hmaps : ∀ a ∈ s.anchors, Keyed.Sorted a := by
    unfold Keyed.Sorted
    decide
  obtain ⟨hok, -, -, hcompare⟩ := check_iff_leading Row.valueAt order s hmaps
  have hcheck : s.check order = .ok () := by decide +kernel
  refine ⟨hmaps, hcheck, ?_, fun a ha x _ => (hcompare hcheck a ha).2 x⟩
  rcases hok.mp hcheck with hnil | ⟨-, hnames⟩
  · exact absurd hnil (by simp [s, anchors])
  · exact hnames

end Slice

end GraphQuery
