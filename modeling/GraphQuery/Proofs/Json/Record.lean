/-
# Maps that are read

A map in a document is read entry by entry; whatever the order of the document, the result is in
key order, and each of its values is what some entry was read as.
-/
import GraphQuery.Json.Record
import GraphQuery.Proofs.Entries

namespace GraphQuery.Json

variable {α β : Type}

/-- Every item of a list that is read is what some item was read as. -/
theorem exists_of_mem_mapM_option {f : α → Option β} {xs : List α} {ys : List β}
    (h : xs.mapM f = some ys) {y : β} (hy : y ∈ ys) : ∃ x ∈ xs, f x = some y := by
  induction xs generalizing ys with
  | nil =>
    obtain rfl : [] = ys := Option.some.inj h
    exact absurd hy List.not_mem_nil
  | cons x rest ih =>
    rw [List.mapM_cons, Option.bind_eq_bind, Option.bind_eq_some_iff] at h
    obtain ⟨z, hz, h⟩ := h
    rw [Option.bind_eq_bind, Option.bind_eq_some_iff] at h
    obtain ⟨zs, hzs, h⟩ := h
    obtain rfl : z :: zs = ys := Option.some.inj h
    rcases List.mem_cons.mp hy with rfl | hy
    · exact ⟨x, List.mem_cons_self, hz⟩
    · obtain ⟨x', hx', hfx'⟩ := ih hzs hy
      exact ⟨x', List.mem_cons_of_mem _ hx', hfx'⟩

/-- **A map is read in key order**, and each of its values is read. -/
theorem map?_eq_some {read : Json → Option α} {j : Json} {entries : List (String × α)}
    (h : map? read j = some entries) :
    Keyed.Sorted entries ∧ ∀ e ∈ entries, ∃ j, read j = some e.2 := by
  unfold map? at h
  split at h
  · obtain ⟨added, hadded, rfl⟩ := Option.map_eq_some_iff.mp h
    refine ⟨Keyed.sorted_ofList added, fun e he => ?_⟩
    have hmem : e ∈ added := (Keyed.mem_overlay he).resolve_left List.not_mem_nil
    obtain ⟨source, -, hsource⟩ := exists_of_mem_mapM_option hadded hmem
    obtain ⟨a, ha, rfl⟩ := Option.map_eq_some_iff.mp hsource
    exact ⟨source.2, ha⟩
  · cases h

end GraphQuery.Json
