/-
# Graphs that are built

Resources come into a graph by insertion and in no other way: `Graph.Built` holds of the graphs that
come about so.

A call that adds a resource asks first whether its type and id are taken (`put_eq`).  **If they are, the
graph stays what it was** (`put_of_error`), although its type has been given a map before.  Else the
resource is found under its own type and id and the others are left alone (`get?_insert`).  So in a
graph that was built a resource is found only under its own type and id (**`Built.ref_of_get?`**).  The
index is in step with the store, so that a scan finds under an id what a lookup finds, and finds it
once (**`Built.filter_scan`**).
-/
import GraphQuery.Graph.Document
import GraphQuery.Proofs.Entries
import GraphQuery.Proofs.Outcome

namespace GraphQuery.Graph

variable {g g' : Graph} {r : Resource} {typeName id : String}

/-! ## 1. One call -/

theorem ofType_withType (g : Graph) (typeName t : String) :
    (g.withType typeName).ofType t = g.ofType t := by
  rw [ofType, withType, Keyed.get?_insertNew, ofType]
  cases Keyed.get? t g.resources with
  | some _ => rfl
  | none =>
    rw [Option.none_or]
    split <;> rfl

/-- A type with a resource has its map. -/
theorem withType_of_get? (h : g.get? typeName id = some r) : g.withType typeName = g := by
  have hcontains : Keyed.contains typeName g.resources = true := by
    unfold get? ofType at h
    unfold Keyed.contains
    cases hmap : Keyed.get? typeName g.resources with
    | some _ => rfl
    | none =>
      rw [hmap] at h
      cases h
  rw [withType, Keyed.insertNew, if_pos hcontains]

/-- What a call does: nothing if type and id are taken, else the resource goes into the map of its
type and its id behind those of the type. -/
theorem put_eq (g : Graph) (r : Resource) :
    g.put r =
      match g.get? r.typeName r.id with
      | some _ => (.error (.duplicateResource r.typeName r.id), g)
      | none =>
        (.ok (), ⟨Keyed.insert r.typeName (Keyed.insert r.id r (g.ofType r.typeName)) g.resources,
          g.index.insert r.typeName r.id⟩) := by
  have htaken : Keyed.contains r.id (g.ofType r.typeName) = (g.get? r.typeName r.id).isSome := rfl
  simp only [put, ofType_withType, htaken]
  cases hget : g.get? r.typeName r.id with
  | some found => exact congrArg (Prod.mk _) (withType_of_get? hget)
  | none =>
    simp only [withType, Keyed.insert_insertNew]
    rfl

/-- **A call that is refused leaves the graph as it was.** -/
theorem put_of_error {e : GraphError} (h : (g.put r).1 = .error e) : (g.put r).2 = g := by
  rw [put_eq] at h ⊢
  cases hget : g.get? r.typeName r.id with
  | some found => rfl
  | none =>
    rw [hget] at h
    cases h

theorem insert_eq_ok_iff_put : g.insert r = .ok g' ↔ g.put r = (.ok (), g') := map_snd_eq_ok

theorem insert_eq_ok_iff :
    g.insert r = .ok g' ↔
      g.get? r.typeName r.id = none ∧
        g' = ⟨Keyed.insert r.typeName (Keyed.insert r.id r (g.ofType r.typeName)) g.resources,
          g.index.insert r.typeName r.id⟩ := by
  rw [insert_eq_ok_iff_put, put_eq]
  cases g.get? r.typeName r.id with
  | none => simp [eq_comm]
  | some _ => simp

theorem ofType_insert (h : g.insert r = .ok g') (typeName : String) :
    g'.ofType typeName =
      if r.typeName = typeName then Keyed.insert r.id r (g.ofType typeName)
      else g.ofType typeName := by
  obtain ⟨-, rfl⟩ := insert_eq_ok_iff.mp h
  rw [ofType, Keyed.get?_insert]
  split
  · next htype => rw [htype]; rfl
  · rfl

/-- **An insertion changes what is found under the type and the id of the new resource.** -/
theorem get?_insert (h : g.insert r = .ok g') (typeName id : String) :
    g'.get? typeName id = if r.ref = ⟨typeName, id⟩ then some r else g.get? typeName id := by
  rw [get?, ofType_insert h, get?]
  simp only [Resource.ref, Ref.mk.injEq]
  by_cases htype : r.typeName = typeName
  · simp only [htype, true_and, if_true, Keyed.get?_insert]
  · simp only [htype, false_and, if_false]

/-- Every reference that leads to a resource still leads to it. -/
def Extends (g' g : Graph) : Prop :=
  ∀ target r, g.resolve? target = some r → g'.resolve? target = some r

/-- **What is found is found after an insertion.** -/
theorem extends_of_insert (h : g.insert r = .ok g') : g'.Extends g := by
  rintro ⟨typeName, id⟩ found hfound
  rw [resolve?, get?_insert h]
  split
  · next href =>
    obtain ⟨hnew, -⟩ := insert_eq_ok_iff.mp h
    have hnone : g.resolve? r.ref = none := hnew
    rw [href, hfound] at hnone
    cases hnone
  · exact hfound

/-- An insertion leaves the scans of other types as they are. -/
theorem scan_insert_of_ne (h : g.insert r = .ok g') (hne : r.typeName ≠ typeName) :
    g'.scan typeName = g.scan typeName := by
  have hids : g'.index.ids typeName = g.index.ids typeName := by
    obtain ⟨-, rfl⟩ := insert_eq_ok_iff.mp h
    rw [TypeIndex.ids_insert, if_neg hne]
  rw [scan, scan, hids]
  congr 1
  funext id
  rw [get?_insert h, if_neg fun href => hne (congrArg Ref.typeName href)]

/-! ## 2. All insertions -/

/-- The graph comes about by insertions into the empty one. -/
inductive Built : Graph → Prop
  | empty : Built empty
  | insert {g g' : Graph} {r : Resource} (hg : Built g) (h : g.insert r = .ok g') : Built g'

theorem Built.insertAll {rs : List Resource} (hg : g.Built)
    (h : rs.foldlM Graph.insert g = .ok g') : g'.Built :=
  foldlM_invariant h hg fun _ _ _ _ hg hr => hg.insert hr

/-- **A resource is found only under its own type and id.** -/
theorem Built.ref_of_get? (hg : g.Built) (h : g.get? typeName id = some r) :
    r.ref = ⟨typeName, id⟩ := by
  induction hg with
  | empty => cases h
  | @insert g g' r' _ hinsert ih =>
    rw [get?_insert hinsert] at h
    split at h
    · next href => exact Option.some.inj h ▸ href
    · exact ih h

theorem Built.ref_of_resolve? (hg : g.Built) {target : Ref} (h : g.resolve? target = some r) :
    r.ref = target :=
  hg.ref_of_get? h

/-! ## 3. Scans -/

theorem exists_get?_of_mem_scan (h : r ∈ g.scan typeName) : ∃ id, g.get? typeName id = some r := by
  obtain ⟨id, -, hid⟩ := List.mem_filterMap.mp h
  exact ⟨id, hid⟩

/-- The index and the store are in step: an id is listed under a type if a resource is found there. -/
theorem Built.mem_ids_iff (hg : g.Built) :
    id ∈ g.index.ids typeName ↔ (g.get? typeName id).isSome = true := by
  induction hg with
  | empty => exact iff_of_false List.not_mem_nil Bool.false_ne_true
  | @insert g g' r _ hinsert ih =>
    have hids : g'.index.ids typeName =
        if r.typeName = typeName then g.index.ids r.typeName ++ [r.id]
        else g.index.ids typeName := by
      obtain ⟨-, rfl⟩ := insert_eq_ok_iff.mp hinsert
      exact g.index.ids_insert r.typeName r.id typeName
    rw [hids, get?_insert hinsert]
    simp only [Resource.ref, Ref.mk.injEq]
    by_cases htype : r.typeName = typeName
    · rw [if_pos htype, htype, List.mem_append, List.mem_singleton, ih]
      by_cases hid : r.id = id
      · simp [hid]
      · simp [hid, Ne.symm hid]
    · rw [if_neg htype, ih]
      simp [htype]

/-- **An insertion puts the new resource behind those of its type.** -/
theorem Built.scan_insert (hg : g.Built) (h : g.insert r = .ok g') :
    g'.scan r.typeName = g.scan r.typeName ++ [r] := by
  obtain ⟨hnew, hg'⟩ := insert_eq_ok_iff.mp h
  have hids : g'.index.ids r.typeName = g.index.ids r.typeName ++ [r.id] := by
    rw [hg', TypeIndex.ids_insert, if_pos rfl]
  have hfound : g'.get? r.typeName r.id = some r := by
    rw [get?_insert h]
    exact if_pos rfl
  -- an id that was listed is not the new one
  have hothers : ∀ id ∈ g.index.ids r.typeName, g'.get? r.typeName id = g.get? r.typeName id := by
    intro id hid
    rw [get?_insert h]
    refine if_neg fun href => ?_
    rw [hg.mem_ids_iff, ← (Ref.mk.inj href).2, hnew] at hid
    cases hid
  rw [scan, hids, List.filterMap_append, List.filterMap_congr hothers, List.filterMap_cons, hfound]
  rfl

/-- **A scan finds an id where a lookup does**, once. -/
theorem Built.filter_scan (hg : g.Built) (typeName id : String) :
    (g.scan typeName).filter (fun r => r.id == id) = (g.get? typeName id).toList := by
  induction hg with
  | empty => rfl
  | @insert g g' r hg hinsert ih =>
    rw [get?_insert hinsert]
    simp only [Resource.ref, Ref.mk.injEq]
    by_cases htype : r.typeName = typeName
    · subst htype
      rw [hg.scan_insert hinsert, List.filter_append, ih]
      by_cases hid : r.id = id
      · subst hid
        rw [(insert_eq_ok_iff.mp hinsert).1]
        simp
      · simp [hid]
    · rw [scan_insert_of_ne hinsert htype, ih, if_neg fun href => htype href.1]

end GraphQuery.Graph
