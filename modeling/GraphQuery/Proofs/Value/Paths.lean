/-
# Where paths lead

A path without wildcards goes down one item or one entry at a time, so it can be followed in two
steps (`follow_append`).  A wildcard branches: the rest of the path is followed in every item, and
whether what it finds there is joined is decided by looking ahead for another wildcard, not by what
the items are.

`leaves` lists what the rest finds, wildcard by wildcard, with no look-ahead.  **`follow_wildcards`:
a path with wildcards finds the list of the leaves**, if a list stands in front of the first wildcard,
and else null.

A map may have the wildcard as a key, which then is a key like any other; the values here have no such
map (`keysWithin`).
-/
import GraphQuery.Value.Path
import GraphQuery.Proofs.Expression.Locality

namespace GraphQuery

namespace Path

/-! ## 1. Paths of one segment -/

theorem splitAtPoints_of_notMem {cs : List Char} (h : '.' ∉ cs) : splitAtPoints cs = [cs] := by
  induction cs with
  | nil => rfl
  | cons c rest ih =>
    rw [List.mem_cons, not_or] at h
    rw [splitAtPoints, if_neg (Ne.symm h.1), ih h.2]

/-- A name without points is a path of one segment. -/
theorem ofText_of_noPoint {name : String} (hne : name ≠ "") (hpoint : '.' ∉ name.toList) :
    ofText name = [name] := by
  rw [ofText, if_neg hne, splitAtPoints_of_notMem hpoint, List.map_singleton, String.ofList_toList]

end Path

namespace Value

/-! ## 2. Keys of parts -/

theorem keysWithin_subset_of_mem_items {v : Value} {items : List Value} (h : v ∈ items) :
    v.keysWithin ⊆ (list items).keysWithin := by
  rw [keysWithin]
  induction items with
  | nil => cases h
  | cons w rest ih =>
    rw [keysWithinItems]
    rcases List.mem_cons.mp h with rfl | h
    · exact List.subset_append_left _ _
    · exact List.subset_append_of_subset_right _ (ih h)

theorem keysWithin_subset_of_mem_entries {e : String × Value} {entries : List (String × Value)}
    (h : e ∈ entries) : e.1 :: e.2.keysWithin ⊆ (map entries).keysWithin := by
  rw [keysWithin]
  induction entries with
  | nil => cases h
  | cons e' rest ih =>
    obtain ⟨k, v⟩ := e'
    rw [keysWithinEntries]
    rcases List.mem_cons.mp h with rfl | h
    · exact List.cons_subset_cons _ (List.subset_append_left _ _)
    · exact List.subset_cons_of_subset _ (List.subset_append_of_subset_right _ (ih h))

/-! ## 3. Paths without wildcards -/

/-- What one segment that is no wildcard leads to: an item by its index, or a value by its key. -/
def next? (v : Value) (segment : String) : Option Value :=
  match v with
  | list items => (Path.index? segment).bind fun i => items[i]?
  | map entries => Keyed.get? segment entries
  | _ => none

theorem follow_cons {segment : String} (h : segment ≠ Path.wildcard) (v : Value) (rest : Path) :
    v.follow (segment :: rest) = ((v.next? segment).map fun next => next.follow rest).getD null := by
  cases v with
  | list items =>
    rw [follow, if_neg h, next?]
    cases Path.index? segment with
    | none => rfl
    | some i =>
      dsimp only
      rw [Option.bind_some]
      cases items[i]? <;> rfl
  | map entries =>
    rw [follow, next?]
    cases Keyed.get? segment entries <;> rfl
  | _ => rfl

theorem keysWithin_subset_of_next? {v next : Value} {segment : String}
    (h : v.next? segment = some next) : next.keysWithin ⊆ v.keysWithin := by
  cases v with
  | list items =>
    obtain ⟨i, -, hitem⟩ := Option.bind_eq_some_iff.mp h
    exact keysWithin_subset_of_mem_items (List.mem_of_getElem? hitem)
  | map entries =>
    exact List.subset_of_cons_subset
      (keysWithin_subset_of_mem_entries (Keyed.mem_of_get?_eq_some h))
  | _ => cases h

theorem null_follow (p : Path) : null.follow p = null := by
  cases p <;> rfl

/-- One segment finds in a row what stands under it, also if it is the wildcard. -/
theorem follow_entry (row : List (String × Value)) (segment : String) :
    (map row).follow [segment] = (Keyed.get? segment row).getD null := by
  rw [follow]
  cases Keyed.get? segment row with
  | none => rfl
  | some v => exact follow_nil v

/-- **A path without wildcards leads where its parts lead one after the other.** -/
theorem follow_append {p : Path} (h : Path.wildcard ∉ p) (v : Value) (q : Path) :
    v.follow (p ++ q) = (v.follow p).follow q := by
  induction p generalizing v with
  | nil => rw [List.nil_append, follow_nil]
  | cons segment rest ih =>
    rw [List.mem_cons, not_or] at h
    rw [List.cons_append, follow_cons (Ne.symm h.1), follow_cons (Ne.symm h.1)]
    cases v.next? segment with
    | none => exact (null_follow q).symm
    | some next => exact ih h.2 next

/-- What such a path finds has no keys but those of the value. -/
theorem keysWithin_follow_subset {p : Path} (h : Path.wildcard ∉ p) (v : Value) :
    (v.follow p).keysWithin ⊆ v.keysWithin := by
  induction p generalizing v with
  | nil => rw [follow_nil]; exact List.Subset.refl _
  | cons segment rest ih =>
    rw [List.mem_cons, not_or] at h
    rw [follow_cons (Ne.symm h.1)]
    cases hnext : v.next? segment with
    | none => exact List.nil_subset _
    | some next => exact List.Subset.trans (ih h.2 next) (keysWithin_subset_of_next? hnext)

/-! ## 4. Leaves -/

/-- The leaves under a path, of which `front` is what has been passed since the last wildcard. -/
def leavesFrom (v : Value) (front : Path) : Path → List Value
  | [] => [v.follow front]
  | segment :: rest =>
    if segment = Path.wildcard then
      match v.follow front with
      | list items => items.flatMap fun item => leavesFrom item [] rest
      | _ => [null]
    else leavesFrom v (front ++ [segment]) rest

/-- The leaves under a path, depth first: without a wildcard, what it finds; with one, the leaves that
the rest of the path has in the items of the list in front of the first wildcard, or null if there
is no list. -/
def leaves (v : Value) (path : Path) : List Value := v.leavesFrom [] path

theorem leavesFrom_append {p : Path} (h : Path.wildcard ∉ p) (v : Value) (front path : Path) :
    v.leavesFrom front (p ++ path) = v.leavesFrom (front ++ p) path := by
  induction p generalizing front with
  | nil => rw [List.nil_append, List.append_nil]
  | cons segment rest ih =>
    rw [List.mem_cons, not_or] at h
    rw [List.cons_append, leavesFrom, if_neg (Ne.symm h.1), ih h.2, List.append_assoc,
      List.singleton_append]

theorem leaves_of_notMem {path : Path} (h : Path.wildcard ∉ path) (v : Value) :
    v.leaves path = [v.follow path] := by
  have hall := leavesFrom_append h v [] []
  rw [List.append_nil] at hall
  rw [leaves, hall, leavesFrom, List.nil_append]

theorem leaves_append {p : Path} (h : Path.wildcard ∉ p) (v : Value) (rest : Path) :
    v.leaves (p ++ Path.wildcard :: rest) =
      match v.follow p with
      | list items => items.flatMap fun item => item.leaves rest
      | _ => [null] := by
  rw [leaves, leavesFrom_append h, leavesFrom, if_pos rfl, List.nil_append]
  rfl

/-! ## 5. Wildcards -/

/-- Without a further wildcard the results for the items are the items of the result. -/
theorem gather_false (results : List Value) : gather false results = results := by
  induction results with
  | nil => rfl
  | cons v rest ih =>
    rw [gather, List.flatMap_cons, ← gather, ih]
    cases v <;> rfl

/-- Only lists go on at a wildcard, unless some map has it as a key. -/
theorem follow_wildcard_of_ne_list {v : Value} (h : Path.wildcard ∉ v.keysWithin)
    (hlist : ∀ items, v ≠ list items) (rest : Path) : v.follow (Path.wildcard :: rest) = null := by
  cases v with
  | list items => exact absurd rfl (hlist items)
  | map entries =>
    rw [follow]
    cases hnext : Keyed.get? Path.wildcard entries with
    | none => rfl
    | some next =>
      exact absurd (keysWithin_subset_of_mem_entries (Keyed.mem_of_get?_eq_some hnext)
        List.mem_cons_self) h
  | _ => rfl

/-- The items of a list, and null as an item. -/
theorem gather_true_map {items : List Value} {f : Value → Value} {g : Value → List Value}
    (h : ∀ item ∈ items, f item = list (g item) ∨ f item = null ∧ g item = [null]) :
    gather true (items.map f) = items.flatMap g := by
  rw [gather, List.flatMap_map]
  refine List.flatMap_congr fun item hitem => ?_
  rcases h item hitem with hf | ⟨hf, hg⟩
  · rw [hf]
    rfl
  · rw [hf, hg]

/-- What a path with a wildcard finds: of a list in front of the first wildcard the leaves are listed,
anything else leads to null, which then is the only leaf. -/
theorem follow_append_wildcard {p : Path} (hp : Path.wildcard ∉ p) {v : Value}
    (h : Path.wildcard ∉ v.keysWithin) (rest : Path) :
    v.follow (p ++ Path.wildcard :: rest) =
      match v.follow p with
      | list _ => list (v.leaves (p ++ Path.wildcard :: rest))
      | _ => null := by
  induction hn : rest.length using Nat.strongRecOn generalizing p v rest with
  | _ n ih =>
  have hkeys : Path.wildcard ∉ (v.follow p).keysWithin := fun hkey =>
    h (keysWithin_follow_subset hp v hkey)
  rw [follow_append hp, leaves_append hp]
  cases hfront : v.follow p with
  | list items =>
    rw [hfront] at hkeys
    have hitems : ∀ item ∈ items, Path.wildcard ∉ item.keysWithin := fun item hitem hkey =>
      hkeys (keysWithin_subset_of_mem_items hitem hkey)
    rw [follow, if_pos rfl]
    dsimp only
    congr 1
    by_cases hrest : Path.wildcard ∈ rest
    · rw [List.contains_iff_mem.mpr hrest]
      obtain ⟨p', rest', rfl, hp'⟩ := List.eq_append_cons_of_mem hrest
      have hlength : rest'.length < n := by
        rw [← hn, List.length_append, List.length_cons]
        omega
      refine gather_true_map fun item hitem => ?_
      rw [ih _ hlength hp' (hitems item hitem) rest' rfl]
      cases hitem' : item.follow p' with
      | list inner => exact Or.inl rfl
      | _ => exact Or.inr ⟨rfl, by rw [leaves_append hp', hitem']⟩
    · rw [Bool.eq_false_iff.mpr (mt List.contains_iff_mem.mp hrest), gather_false,
        List.map_eq_flatMap]
      exact List.flatMap_congr fun item _ => (leaves_of_notMem hrest item).symm
  | _ => exact follow_wildcard_of_ne_list (hfront ▸ hkeys) (by simp) rest

/-- **Wildcards enumerate leaves depth first.**  Of a value in which no map has the wildcard as a key:
the leaves under a path are what a path without wildcards finds, and else those that the rest of the
path has in the items in front of the first wildcard, one after the other, or null if no list stands
there.  Where a list stands there, a path with wildcards finds the list of the leaves, and anywhere
else null.  A path without wildcards can be followed in two steps. -/
theorem follow_wildcards (v : Value) (h : Path.wildcard ∉ v.keysWithin) (path : Path) :
    (Path.wildcard ∉ path → v.leaves path = [v.follow path]) ∧
      (∀ p rest, path = p ++ Path.wildcard :: rest → Path.wildcard ∉ p →
        (v.leaves path =
          match v.follow p with
          | list items => items.flatMap fun item => item.leaves rest
          | _ => [null]) ∧
        (v.follow path =
          match v.follow p with
          | list _ => list (v.leaves path)
          | _ => null)) ∧
      ∀ p q, Path.wildcard ∉ p → (v.follow p).follow q = v.follow (p ++ q) := by
  refine ⟨fun hpath => leaves_of_notMem hpath v, ?_, fun p q hp => (follow_append hp v q).symm⟩
  rintro p rest rfl hp
  exact ⟨leaves_append hp v rest, follow_append_wildcard hp h rest⟩

/-- Homes with the names of those who live there: one home says nothing about them, and one of the
names is a list. -/
def homes : Value := .map [("homes", .list [
  .map [("residents", .list [.map [("name", .string "a")], .map [("name", .list [.string "b"])]])],
  .map [],
  .map [("residents", .list [.null])]])]

theorem follow_wildcards_homes :
    Path.wildcard ∉ homes.keysWithin ∧
      homes.leaves (Path.ofText "homes.$.residents.$.name") =
        [.string "a", .list [.string "b"], .null, .null] ∧
      homes.follow (Path.ofText "homes.$.residents.$.name") =
        .list [.string "a", .list [.string "b"], .null, .null] := by
  have hkeys : Path.wildcard ∉ homes.keysWithin := by decide +kernel
  have hleaves : homes.leaves (Path.ofText "homes.$.residents.$.name") =
      [.string "a", .list [.string "b"], .null, .null] := by decide +kernel
  have hfront : homes.follow ["homes"] = .list [
    .map [("residents", .list [.map [("name", .string "a")], .map [("name", .list [.string "b"])]])],
    .map [], .map [("residents", .list [.null])]] := by decide +kernel
  obtain ⟨-, hsplit, -⟩ := follow_wildcards homes hkeys (Path.ofText "homes.$.residents.$.name")
  have hfollow := (hsplit ["homes"] ["residents", "$", "name"] (by decide) (by decide)).2
  rw [hfront, hleaves] at hfollow
  exact ⟨hkeys, hleaves, hfollow⟩

end Value

end GraphQuery
