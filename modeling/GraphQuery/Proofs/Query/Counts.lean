/-
# Queries without limit and offset

A document may write limit and offset beside its clauses or in the slice.  Without them, wherever
they stand, it is read as the same query without limit and offset, since every other clause is read
from what it was read from (**`Dialect.normalize_withoutCounts`**).
-/
import GraphQuery.Proofs.Ordering.Windows
import GraphQuery.Proofs.Query.Rereading

namespace GraphQuery

/-! ## 1. Documents and queries without counts -/

/-- The query without limit and offset. -/
def QueryOf.unlimited {σ : Type} (q : QueryOf σ) : QueryOf σ := { q with slice := q.slice.unlimited }

/-- The entries without limit and offset. -/
def Row.withoutCounts (entries : Row) : Row := Keyed.erase "offset" (Keyed.erase "limit" entries)

/-- What a slice is written as, without limit and offset. -/
def Value.sliceWithoutCounts : Value → Value
  | .map inner => .map (Row.withoutCounts inner)
  | v => v

/-- What a clause is written as, without limit and offset; only the slice has them. -/
def Value.clauseWithoutCounts (key : String) (v : Value) : Value :=
  if key = "slice" then v.sliceWithoutCounts else v

/-- The clauses of a query without limit and offset, wherever they may stand. -/
def Row.clausesWithoutCounts (entries : Row) : Row :=
  (Row.withoutCounts entries).map fun e => (e.1, Value.clauseWithoutCounts e.1 e.2)

/-- The document of a query without limit and offset. -/
def Value.withoutCounts : Value → Value
  | .map entries => .map (Row.clausesWithoutCounts entries)
  | v => v

/-! ## 2. What stands under a key -/

namespace Row

theorem get?_withoutCounts (key : String) (entries : Row) :
    Keyed.get? key entries.withoutCounts =
      if key = "limit" ∨ key = "offset" then none else Keyed.get? key entries := by
  rw [withoutCounts, Keyed.get?_erase, Keyed.get?_erase]
  grind

theorem mem_keys_of_withoutCounts {key : String} {entries : Row}
    (h : key ∈ Keyed.keys entries.withoutCounts) : key ∈ Keyed.keys entries :=
  Keyed.mem_keys_of_mem_keys_erase (Keyed.mem_keys_of_mem_keys_erase h)

theorem get?_clausesWithoutCounts (key : String) (entries : Row) :
    Keyed.get? key entries.clausesWithoutCounts =
      if key = "limit" ∨ key = "offset" then none
      else (Keyed.get? key entries).map (Value.clauseWithoutCounts key) := by
  rw [clausesWithoutCounts, Keyed.get?_map key Value.clauseWithoutCounts, get?_withoutCounts]
  split <;> rfl

/-- All clauses but the slice stay as they are. -/
theorem get?_clausesWithoutCounts_of_notMem {key : String} (h : key ∉ ["limit", "offset", "slice"])
    (entries : Row) : Keyed.get? key entries.clausesWithoutCounts = Keyed.get? key entries := by
  simp only [List.mem_cons, List.not_mem_nil, or_false, not_or] at h
  obtain ⟨hlimit, hoffset, hslice⟩ := h
  have hclause : Value.clauseWithoutCounts key = id := funext fun _ => if_neg hslice
  rw [get?_clausesWithoutCounts, if_neg (not_or.mpr ⟨hlimit, hoffset⟩), hclause, Option.map_id, id]

theorem keys_clausesWithoutCounts (entries : Row) :
    Keyed.keys entries.clausesWithoutCounts = Keyed.keys entries.withoutCounts :=
  Keyed.keys_map Value.clauseWithoutCounts _

end Row

/-- A section may be given without counts. -/
theorem Section.check_withoutCounts {s : Section} {entries : Row} (h : s.check entries = .ok ()) :
    s.check entries.withoutCounts = .ok () :=
  Section.check_eq_ok_iff.mpr fun key hkey =>
    Section.check_eq_ok_iff.mp h key (Row.mem_keys_of_withoutCounts hkey)

/-! ## 3. Slices -/

namespace Slice

theorem ofCounts_eq_ok {entries : Row} {s : Slice} (h : ofCounts entries = .ok s) :
    s.unlimited = {} := by
  obtain ⟨limit, -, h⟩ := bind_eq_ok.mp h
  obtain ⟨offset, -, h⟩ := bind_eq_ok.mp h
  rw [← pure_eq_ok.mp h]
  rfl

theorem ofCounts_of_none {entries : Row} (hlimit : Keyed.get? "limit" entries = none)
    (hoffset : Keyed.get? "offset" entries = none) : ofCounts entries = .ok {} := by
  rw [ofCounts, hlimit, hoffset]
  rfl

theorem ofEntries_withoutCounts {entries : Row} {s : Slice} (h : ofEntries entries = .ok s) :
    ofEntries entries.withoutCounts = .ok s.unlimited := by
  obtain ⟨hkeys, h⟩ := check_bind_eq_ok.mp h
  obtain ⟨counts, hcounts, h⟩ := bind_eq_ok.mp h
  obtain ⟨before, hbefore, h⟩ := bind_eq_ok.mp h
  obtain ⟨after, hafter, h⟩ := bind_eq_ok.mp h
  obtain rfl := pure_eq_ok.mp h
  have hget := fun key => Row.get?_withoutCounts key entries
  have hempty : ofCounts entries.withoutCounts = .ok {} :=
    ofCounts_of_none (hget "limit") (hget "offset")
  rw [ofEntries, Section.check_withoutCounts hkeys, hempty, hget "before", hget "after"]
  simp only [ok_bind, String.reduceEq, or_self, if_false, hbefore, hafter]
  rfl

/-- The clauses without counts have the slice without counts. -/
theorem ofClauses_withoutCounts {entries : Row} {s : Slice} (h : ofClauses entries = .ok s) :
    ofClauses entries.clausesWithoutCounts = .ok s.unlimited := by
  have hget := fun key => Row.get?_clausesWithoutCounts key entries
  have hempty : ofCounts entries.clausesWithoutCounts = .ok {} :=
    ofCounts_of_none (hget "limit") (hget "offset")
  have hcounts : (Keyed.contains "limit" entries.clausesWithoutCounts ||
      Keyed.contains "offset" entries.clausesWithoutCounts) = false := by
    rw [Keyed.contains, Keyed.contains, hget "limit", hget "offset"]
    rfl
  have hslice : Keyed.get? "slice" entries.clausesWithoutCounts =
      (Keyed.get? "slice" entries).map Value.sliceWithoutCounts := hget "slice"
  rw [ofClauses, hslice, hcounts]
  unfold ofClauses at h
  cases hv : Keyed.get? "slice" entries with
  | none =>
    rw [hv] at h
    rw [ofCounts_eq_ok h]
    exact hempty
  | some v =>
    rw [hv] at h
    dsimp only at h
    split at h
    · cases h
    · cases v with
      | null => rw [← Except.ok.inj h]; rfl
      | map inner => exact ofEntries_withoutCounts h
      | _ => cases h

end Slice

/-! ## 4. Queries -/

namespace Dialect

variable {d : Dialect}

/-- **A document without counts is read as the query without counts.** -/
theorem readQuery_withoutCounts {expected : Option String} {depth : Nat} {v : Value} {q : Query}
    (h : d.readQuery expected depth v = .ok q) :
    d.readQuery expected depth v.withoutCounts = .ok q.unlimited := by
  obtain ⟨entries, rfl⟩ := exists_map_of_readQuery h
  obtain ⟨hdepth, hkeys, htype, ⟨t, select?, ht, hselect?, hselect⟩, hid, hgroups, hfilter, horder,
    hslice⟩ := readQuery_map_eq_ok_iff.mp h
  -- all clauses but the slice are read from what they were read from
  have hget : ∀ key, key ∉ ["limit", "offset", "slice"] →
      Keyed.get? key (Row.clausesWithoutCounts entries) = Keyed.get? key entries :=
    fun _ hkey => Row.get?_clausesWithoutCounts_of_notMem hkey entries
  refine readQuery_map_eq_ok_iff.mpr ⟨hdepth, ?_, ?_, ⟨t, select?, ht, ?_, hselect⟩, ?_, ?_, ?_, ?_,
    Slice.ofClauses_withoutCounts hslice⟩
  · refine Section.check_eq_ok_iff.mpr fun key hkey => ?_
    rw [Row.keys_clausesWithoutCounts] at hkey
    exact Section.check_eq_ok_iff.mp (Section.check_withoutCounts hkeys) key hkey
  · unfold readTypeName
    rw [hget "type" (by decide)]
    exact htype
  · rw [readSelectAmong_eq, hget "select" (by decide), ← readSelectAmong_eq]
    exact hselect?
  · rw [readId, hget "id" (by decide)]
    exact hid
  · rw [readGroupsAmong_eq, hget "group" (by decide), ← readGroupsAmong_eq]
    exact hgroups
  · rw [hget "where" (by decide)]
    exact hfilter
  · rw [hget "order" (by decide)]
    exact horder

theorem normalize_withoutCounts {v : Value} {q : Query} (h : d.normalize v = .ok q) :
    d.normalize v.withoutCounts = .ok q.unlimited := by
  obtain ⟨q', hread, h⟩ := bind_eq_ok.mp h
  split at h
  · cases h
  · next hgroups =>
    obtain rfl := pure_eq_ok.mp h
    rw [normalize, readQuery_withoutCounts hread, ok_bind]
    exact if_neg hgroups

end Dialect

end GraphQuery
