/-
# Shorthands in filters, orders, slices and group levels

Many clauses of a document may be abbreviated.  A relation for each kind of clause says what one
shorthand is short for: `FilterExpands` for filters, `OrderExpands` for orders, `ClausesExpand` for
the clauses that a query and a group level share, `GroupExpands` for group levels and the levels
inside them.  Each relates a document to one in which a single shorthand, anywhere in it, is written
out.

What is read stays: `readFilter_expanded`, `readOrder_expanded`, `ClausesExpand.kept`, and
**`readGroups_expanded`** for whole group levels.  All say so of a document that is read; one that is
refused may be accepted when it is written out, since the map that a list merges to has lost what
later items replaced.
-/
import GraphQuery.Proofs.Query.Counts
import GraphQuery.Proofs.Query.Merging

namespace GraphQuery

/-! ## 1. Filters -/

/-- One shorthand in the document of a filter is written out.  Several tests in one map are short for
a list of them under `$and`, also where filters are combined. -/
inductive FilterExpands : Value → Value → Prop
  | several {entries : Row} (h : 2 ≤ entries.length) :
      FilterExpands (.map entries) (.map [("$and", .list (entries.map fun e => .map [e]))])
  | part {before after : Row} {key : String} {front rest : List Value} {v w : Value}
      (hkey : key = "$and" ∨ key = "$or") (h : FilterExpands v w) :
      FilterExpands (.map (before ++ (key, .list (front ++ v :: rest)) :: after))
        (.map (before ++ (key, .list (front ++ w :: rest)) :: after))
  | negated {before after : Row} {v w : Value} (h : FilterExpands v w) :
      FilterExpands (.map (before ++ ("$not", v) :: after)) (.map (before ++ ("$not", w) :: after))

theorem Filter.ofParts_of_two_le {parts : List Filter} (h : 2 ≤ parts.length) :
    Filter.ofParts parts = .conjunction parts := by
  match parts, h with
  | _ :: _ :: _, _ => rfl

/-- What is written out is a map with entries, and stays one. -/
theorem FilterExpands.exists_maps {v w : Value} (h : FilterExpands v w) :
    ∃ entries entries' : Row, v = .map entries ∧ w = .map entries' ∧ entries ≠ [] ∧
      entries' ≠ [] := by
  cases h with
  | several hlen =>
    refine ⟨_, _, rfl, rfl, ?_, by simp⟩
    rintro rfl
    exact absurd hlen (by simp)
  | part _ _ => exact ⟨_, _, rfl, rfl, by simp, by simp⟩
  | negated _ => exact ⟨_, _, rfl, rfl, by simp, by simp⟩

namespace OperatorTable

variable (t : OperatorTable)

theorem readFilter_several {entries : Row} (h : 2 ≤ entries.length) :
    Keeps (t.readFilter (.map entries))
      (t.readFilter (.map [("$and", .list (entries.map fun e => .map [e]))])) := by
  refine keeps_iff.mpr fun f hf => ?_
  rw [readFilter_map, map_eq_ok] at hf
  obtain ⟨parts, hparts, rfl⟩ := hf
  rw [mapM_eq_ok_iff] at hparts
  have hitems : (entries.map fun e => Value.map [e]).mapM t.readFilter = .ok parts := by
    rw [mapM_eq_ok_iff, List.forall₂_map_left_iff]
    exact hparts.imp fun e f he => (t.readFilter_singleton e.1 e.2).trans he
  rw [Filter.ofParts_of_two_le (hparts.length_eq ▸ h), readFilter_singleton, readFilterEntry,
    if_pos rfl, readParts, hitems]
  rfl

/-- A filter is kept if the entry that changes is. -/
theorem readFilter_at {before after : Row} {key : String} {v w : Value}
    (h : Keeps (t.readFilterEntry key v) (t.readFilterEntry key w)) :
    Keeps (t.readFilter (.map (before ++ (key, v) :: after)))
      (t.readFilter (.map (before ++ (key, w) :: after))) := by
  rw [readFilter_map, readFilter_map]
  have hat : Keeps ((before ++ (key, v) :: after).mapM fun e => t.readFilterEntry e.1 e.2)
      ((before ++ (key, w) :: after).mapM fun e => t.readFilterEntry e.1 e.2) :=
    SameUnless.mapM_at (a := (key, v)) (b := (key, w)) h before after
  exact hat.map

/-- **A filter that is written out is the same filter.** -/
theorem readFilter_expanded {v w : Value} (h : FilterExpands v w) :
    Keeps (t.readFilter v) (t.readFilter w) := by
  induction h with
  | several h => exact t.readFilter_several h
  | @part before after key front rest v w hkey _ ih =>
    have hparts : Keeps (t.readParts key (.list (front ++ v :: rest)))
        (t.readParts key (.list (front ++ w :: rest))) := SameUnless.mapM_at ih front rest
    refine t.readFilter_at ?_
    rcases hkey with rfl | rfl
    · exact hparts.map
    · exact hparts.map
  | negated _ ih => exact t.readFilter_at ih.map

theorem readFilter?_of_ne_nil {entries : Row} (h : entries ≠ []) :
    t.readFilter? (some (.map entries)) = (t.readFilter (.map entries)).map some := by
  cases entries with
  | nil => exact absurd rfl h
  | cons e rest => rfl

theorem readFilter?_expanded {v w : Value} (h : FilterExpands v w) :
    Keeps (t.readFilter? (some v)) (t.readFilter? (some w)) := by
  have hread := t.readFilter_expanded h
  obtain ⟨entries, entries', rfl, rfl, hne, hne'⟩ := h.exists_maps
  rw [t.readFilter?_of_ne_nil hne, t.readFilter?_of_ne_nil hne']
  exact hread.map

end OperatorTable

/-! ## 2. Orders -/

/-- One shorthand in an order is written out: a name is short for the name with `asc`, and a sort key
by itself for the list of it. -/
inductive OrderExpands : Value → Value → Prop
  | name (field : String) : OrderExpands (.string field) (.list [.map [(field, .string "asc")]])
  | single (field : String) (direction : Value) :
      OrderExpands (.map [(field, direction)]) (.list [.map [(field, direction)]])
  | listed (front rest : List Value) (field : String) :
      OrderExpands (.list (front ++ .string field :: rest))
        (.list (front ++ .map [(field, .string "asc")] :: rest))

theorem readOrder_list {items : List Value} (h : items ≠ []) :
    readOrder (some (.list items)) = items.mapM OrderKey.ofValue := by
  cases items with
  | nil => exact absurd rfl h
  | cons v rest => rfl

/-- **An order that is written out is the same order.** -/
theorem readOrder_expanded {v w : Value} (h : OrderExpands v w) :
    Keeps (readOrder (some v)) (readOrder (some w)) := by
  cases h with
  | name field => exact Or.inl rfl
  | single field direction =>
    rw [readOrder_list (List.cons_ne_nil _ _), List.mapM_cons, List.mapM_nil]
    exact Or.inl rfl
  | listed front rest field =>
    have hkey : Keeps (OrderKey.ofValue (.string field))
        (OrderKey.ofValue (.map [(field, .string "asc")])) := Or.inl rfl
    rw [readOrder_list (by simp), readOrder_list (by simp)]
    exact SameUnless.mapM_at hkey front rest

/-! ## 3. Slices -/

namespace Row

/-- Limit and offset, as an object of their own. -/
def counts (entries : Row) : Row :=
  Row.ofOptions [("limit", Keyed.get? "limit" entries), ("offset", Keyed.get? "offset" entries)]

theorem get?_counts (key : String) (entries : Row) :
    Keyed.get? key entries.counts =
      if key = "limit" ∨ key = "offset" then Keyed.get? key entries else none := by
  rw [counts, Row.get?_ofOptions (by simp [Keyed.keys])]
  by_cases hlimit : "limit" = key
  · subst hlimit
    rfl
  · by_cases hoffset : "offset" = key
    · subst hoffset
      rfl
    · rw [Keyed.get?, if_neg hlimit, Keyed.get?, if_neg hoffset,
        if_neg (not_or.mpr ⟨Ne.symm hlimit, Ne.symm hoffset⟩)]
      rfl

theorem mem_keys_counts {key : String} {entries : Row} (h : key ∈ Keyed.keys entries.counts) :
    key = "limit" ∨ key = "offset" := by
  by_contra hnot
  refine Keyed.get?_eq_none_iff.mp ?_ h
  rw [get?_counts, if_neg hnot]

end Row

namespace Slice

/-- Slices are read from three keys. -/
theorem ofClauses_congr {entries entries' : Row}
    (h : ∀ key ∈ ["limit", "offset", "slice"], Keyed.get? key entries' = Keyed.get? key entries) :
    ofClauses entries' = ofClauses entries := by
  have hlimit := h "limit" (by decide)
  have hoffset := h "offset" (by decide)
  have hslice := h "slice" (by decide)
  simp only [ofClauses, ofCounts, Keyed.contains, hlimit, hoffset, hslice]
  rfl

theorem ofClauses_insert {key : String} (hkey : key ∉ ["limit", "offset", "slice"]) (v : Value)
    (entries : Row) : ofClauses (Keyed.insert key v entries) = ofClauses entries := by
  refine ofClauses_congr fun key' hkey' => Keyed.get?_insert_of_ne ?_ v entries
  rintro rfl
  exact hkey hkey'

theorem ofCounts_congr {entries entries' : Row}
    (h : ∀ key ∈ ["limit", "offset"], Keyed.get? key entries' = Keyed.get? key entries) :
    ofCounts entries' = ofCounts entries := by
  rw [ofCounts, ofCounts, h "limit" (by decide), h "offset" (by decide)]

/-- Limit and offset alone are read as they are read beside the other clauses. -/
theorem ofEntries_counts {entries : Row} {s : Slice} (h : ofCounts entries = .ok s) :
    ofEntries entries.counts = .ok s := by
  have hkeys : Section.slice.check entries.counts = .ok () := by
    refine Section.check_eq_ok_iff.mpr fun key hkey => ?_
    rcases Row.mem_keys_counts hkey with rfl | rfl <;> decide
  have hcounts : ofCounts entries.counts = .ok s := by
    rw [← h]
    refine ofCounts_congr fun key hkey => ?_
    rw [Row.get?_counts, if_pos (by simpa using hkey)]
  have hanchors : ∀ key, key = "before" ∨ key = "after" → Keyed.get? key entries.counts = none := by
    rintro key (rfl | rfl) <;> exact Row.get?_counts _ _
  have hs : s.unlimited = {} := ofCounts_eq_ok h
  rw [ofEntries, hkeys, hcounts, hanchors "before" (Or.inl rfl), hanchors "after" (Or.inr rfl)]
  obtain ⟨limit, offset, before, after⟩ := s
  cases hs
  rfl

/-- Limit and offset may be put into a slice if there is none. -/
theorem ofClauses_counts {entries : Row} (h : Keyed.get? "slice" entries = none) :
    Keeps (ofClauses entries)
      (ofClauses (Keyed.insert "slice" (.map entries.counts) entries.withoutCounts)) := by
  refine keeps_iff.mpr fun s hs => ?_
  have hcounts : ofCounts entries = .ok s := by
    rw [ofClauses, h] at hs
    exact hs
  have hget : ∀ key, key = "limit" ∨ key = "offset" →
      Keyed.contains key (Keyed.insert "slice" (.map entries.counts) entries.withoutCounts) =
        false := by
    rintro key (rfl | rfl) <;> simp [Keyed.contains, Keyed.get?_insert, Row.get?_withoutCounts]
  rw [ofClauses, Keyed.get?_insert_self]
  simp only [hget "limit" (Or.inl rfl), hget "offset" (Or.inr rfl), Bool.or_self]
  exact ofEntries_counts hcounts

end Slice

/-! ## 4. The clauses of queries and group levels -/

/-- The keys of the clauses that a query and a group level share. -/
def sharedClauses : List String := ["where", "order", "slice", "limit", "offset"]

/-- One shorthand in the shared clauses is written out. -/
inductive ClausesExpand (entries : Row) : Row → Prop
  | filter {v w : Value} (hv : Keyed.get? "where" entries = some v) (h : FilterExpands v w) :
      ClausesExpand entries (Keyed.insert "where" w entries)
  | noFilter (hv : Keyed.get? "where" entries = some (.map [])) :
      ClausesExpand entries (Keyed.erase "where" entries)
  | order {v w : Value} (hv : Keyed.get? "order" entries = some v) (h : OrderExpands v w) :
      ClausesExpand entries (Keyed.insert "order" w entries)
  | counts (h : Keyed.get? "slice" entries = none) :
      ClausesExpand entries (Keyed.insert "slice" (.map entries.counts) entries.withoutCounts)

/-- The shared clauses are read as they were. -/
structure ClausesKept (t : OperatorTable) (entries entries' : Row) : Prop where
  filter : Keeps (t.readFilter? (Keyed.get? "where" entries))
    (t.readFilter? (Keyed.get? "where" entries'))
  order : Keeps (readOrder (Keyed.get? "order" entries)) (readOrder (Keyed.get? "order" entries'))
  slice : Keeps (Slice.ofClauses entries) (Slice.ofClauses entries')

theorem ClausesKept.of_get? (t : OperatorTable) {entries entries' : Row}
    (h : ∀ key ∈ sharedClauses, Keyed.get? key entries' = Keyed.get? key entries) :
    ClausesKept t entries entries' where
  filter := by
    rw [h "where" (by decide)]
    exact .refl
  order := by
    rw [h "order" (by decide)]
    exact .refl
  slice := by
    rw [Slice.ofClauses_congr fun key hkey => h key (by revert key; decide)]
    exact .refl

/-- Under another key anything may be set. -/
theorem ClausesKept.insert (t : OperatorTable) {key : String} (hkey : key ∉ sharedClauses) (v : Value)
    (entries : Row) : ClausesKept t entries (Keyed.insert key v entries) := by
  refine .of_get? t fun key' hkey' => Keyed.get?_insert_of_ne ?_ v entries
  rintro rfl
  exact hkey hkey'

namespace ClausesExpand

variable {entries entries' : Row}

/-- **Clauses that are written out are read as they were.** -/
theorem kept (t : OperatorTable) (h : ClausesExpand entries entries') :
    ClausesKept t entries entries' := by
  cases h with
  | @filter v w hv h =>
    refine ⟨?_, ?_, ?_⟩
    · rw [hv, Keyed.get?_insert_self]
      exact t.readFilter?_expanded h
    · rw [Keyed.get?_insert_of_ne (by decide)]
      exact .refl
    · rw [Slice.ofClauses_insert (by decide)]
      exact .refl
  | noFilter hv =>
    refine ⟨?_, ?_, ?_⟩
    · rw [hv, Keyed.get?_erase, if_pos rfl]
      exact Or.inl rfl
    · rw [Keyed.get?_erase, if_neg (by decide)]
      exact .refl
    · rw [Slice.ofClauses_congr fun key hkey => ?_]
      · exact .refl
      · rw [Keyed.get?_erase, if_neg]
        revert key
        decide
  | @order v w hv h =>
    refine ⟨?_, ?_, ?_⟩
    · rw [Keyed.get?_insert_of_ne (by decide)]
      exact .refl
    · rw [hv, Keyed.get?_insert_self]
      exact readOrder_expanded h
    · rw [Slice.ofClauses_insert (by decide)]
      exact .refl
  | counts h =>
    -- limit and offset go away, and only the slice is read from them
    have hget : ∀ key, key ∉ ["slice", "limit", "offset"] → Keyed.get? key
        (Keyed.insert "slice" (.map entries.counts) entries.withoutCounts) =
          Keyed.get? key entries := by
      intro key hkey
      simp only [List.mem_cons, List.not_mem_nil, or_false, not_or] at hkey
      rw [Keyed.get?_insert_of_ne (Ne.symm hkey.1), Row.get?_withoutCounts,
        if_neg (not_or.mpr hkey.2)]
    refine ⟨?_, ?_, Slice.ofClauses_counts h⟩
    · rw [hget "where" (by decide)]
      exact .refl
    · rw [hget "order" (by decide)]
      exact .refl

/-- All other clauses stay as they are. -/
theorem get?_of_notMem (h : ClausesExpand entries entries') {key : String}
    (hkey : key ∉ sharedClauses) : Keyed.get? key entries' = Keyed.get? key entries := by
  simp only [sharedClauses, List.mem_cons, List.not_mem_nil, or_false, not_or] at hkey
  obtain ⟨hwhere, horder, hslice, hcounts⟩ := hkey
  cases h with
  | filter _ _ => rw [Keyed.get?_insert_of_ne (Ne.symm hwhere)]
  | noFilter _ => rw [Keyed.get?_erase, if_neg (Ne.symm hwhere)]
  | order _ _ => rw [Keyed.get?_insert_of_ne (Ne.symm horder)]
  | counts _ =>
    rw [Keyed.get?_insert_of_ne (Ne.symm hslice), Row.get?_withoutCounts,
      if_neg (not_or.mpr hcounts)]

theorem mem_keys (h : ClausesExpand entries entries') {key : String}
    (hkey : key ∈ Keyed.keys entries') : key ∈ Keyed.keys entries ∨ key ∈ sharedClauses := by
  cases h with
  | filter _ _ =>
    rcases Keyed.mem_keys_insert.mp hkey with rfl | hkey
    · exact Or.inr (by decide)
    · exact Or.inl hkey
  | noFilter _ => exact Or.inl (Keyed.mem_keys_of_mem_keys_erase hkey)
  | order _ _ =>
    rcases Keyed.mem_keys_insert.mp hkey with rfl | hkey
    · exact Or.inr (by decide)
    · exact Or.inl hkey
  | counts _ =>
    rcases Keyed.mem_keys_insert.mp hkey with rfl | hkey
    · exact Or.inr (by decide)
    · exact Or.inl (Row.mem_keys_of_withoutCounts hkey)

/-- A section that has the shared clauses still has all keys. -/
theorem check (h : ClausesExpand entries entries') {s : Section}
    (hs : ∀ key ∈ sharedClauses, key ∈ s.keys) : Keeps (s.check entries) (s.check entries') := by
  refine keeps_iff.mpr fun _ hcheck => Section.check_eq_ok_iff.mpr fun key hkey => ?_
  rcases h.mem_keys hkey with hkey | hkey
  · exact Section.check_eq_ok_iff.mp hcheck key hkey
  · exact hs key hkey

end ClausesExpand

theorem Section.check_insert {s : Section} {key : String} (hkey : key ∈ s.keys) (v : Value)
    (entries : Row) : Keeps (s.check entries) (s.check (Keyed.insert key v entries)) := by
  refine keeps_iff.mpr fun _ hcheck => Section.check_eq_ok_iff.mpr fun key' hkey' => ?_
  rcases Keyed.mem_keys_insert.mp hkey' with rfl | hkey'
  · exact hkey
  · exact Section.check_eq_ok_iff.mp hcheck key' hkey'

/-! ## 5. Group levels -/

/-- One shorthand in the document of group levels is written out: in the shared clauses, in the
levels inside, in the keys, or in the selection, which without a clause is that of the keys. -/
inductive GroupExpands : Value → Value → Prop
  | clauses {entries entries' : Row} (h : ClausesExpand entries entries') :
      GroupExpands (.map entries) (.map entries')
  | inner {entries : Row} {v w : Value} (hv : Keyed.get? "group" entries = some v)
      (h : GroupExpands v w) : GroupExpands (.map entries) (.map (Keyed.insert "group" w entries))
  | key {entries : Row} {name : String} (hv : Keyed.get? "by" entries = some (.string name)) :
      GroupExpands (.map entries) (.map (Keyed.insert "by" (.list [.string name]) entries))
  | select {entries : Row} {items : List Value} {keys : List String}
      (hv : Keyed.get? "select" entries = some (.list items))
      (hkeys : readGroupKeys (Keyed.get? "by" entries) = .ok keys) :
      GroupExpands (.map entries)
        (.map (Keyed.insert "select" (.map (Row.merged (Row.ofFields keys) items)) entries))
  | noSelect {entries : Row} {keys : List String} {v : Value}
      (hnone : Keyed.get? "select" entries = none)
      (hkeys : readGroupKeys (Keyed.get? "by" entries) = .ok keys)
      (hv : v = .map (Row.ofFields keys) ∨ v = .list (keys.map .string)) :
      GroupExpands (.map entries) (.map (Keyed.insert "select" v entries))

/-- The keys of a group level may be named by the list of a single one. -/
theorem readGroupKeys_single (name : String) :
    readGroupKeys (some (.list [.string name])) = readGroupKeys (some (.string name)) := rfl

/-- The selection of a group level may be written out. -/
theorem OperatorTable.readGroupSelect_noSelect (t : OperatorTable) {keys : List String} {v : Value}
    (hv : v = .map (Row.ofFields keys) ∨ v = .list (keys.map .string)) :
    t.readGroupSelect keys (some v) = t.readGroupSelect keys none := by
  rcases hv with rfl | rfl
  · exact readGroupSelect_ofFields
  · exact readGroupSelect_names

namespace Dialect

variable {d : Dialect}

theorem readGroupsAmong_congr {depth : Nat} {entries entries' : Row}
    (h : Keyed.get? "group" entries' = Keyed.get? "group" entries) :
    d.readGroupsAmong depth entries' = d.readGroupsAmong depth entries := by
  rw [readGroupsAmong_eq, readGroupsAmong_eq, h]

theorem readGroupsAmong_insert_of_ne {depth : Nat} {key : String} (hkey : key ≠ "group") (v : Value)
    (entries : Row) :
    d.readGroupsAmong depth (Keyed.insert key v entries) = d.readGroupsAmong depth entries :=
  readGroupsAmong_congr (Keyed.get?_insert_of_ne hkey v entries)

/-- The clause of group levels may be replaced by one that is read as it was. -/
theorem readGroupsAmong_insert {depth : Nat} {entries : Row} {v w : Value}
    (hv : Keyed.get? "group" entries = some v)
    (h : Keeps (d.readGroups depth v) (d.readGroups depth w)) :
    Keeps (d.readGroupsAmong depth entries)
      (d.readGroupsAmong depth (Keyed.insert "group" w entries)) := by
  rw [readGroupsAmong_eq, readGroupsAmong_eq, hv, Keyed.get?_insert_self]
  exact h

/-- A group level is read as it was if each of its parts is. -/
theorem readGroups_keeps {depth : Nat} {entries entries' : Row}
    (hcheck : Keeps (Section.group.check entries) (Section.group.check entries'))
    (hkeys : readGroupKeys (Keyed.get? "by" entries') = readGroupKeys (Keyed.get? "by" entries))
    (hselect : ∀ keys, readGroupKeys (Keyed.get? "by" entries) = .ok keys →
      Keeps (d.operators.readGroupSelect keys (Keyed.get? "select" entries))
        (d.operators.readGroupSelect keys (Keyed.get? "select" entries')))
    (haggregates : Keyed.get? "aggregates" entries' = Keyed.get? "aggregates" entries)
    (hinner : Keeps (d.readGroupsAmong (depth + 1) entries) (d.readGroupsAmong (depth + 1) entries'))
    (hclauses : ClausesKept d.operators entries entries') :
    Keeps (d.readGroups depth (.map entries)) (d.readGroups depth (.map entries')) := by
  rw [readGroups, readGroups, hkeys, haggregates]
  refine SameUnless.refl.bind fun _ _ => ?_
  refine hcheck.bind fun _ _ => ?_
  refine SameUnless.refl.bind fun keys hread => ?_
  refine (hselect keys hread).bind fun _ _ => ?_
  refine SameUnless.refl.bind fun _ _ => ?_
  refine hinner.bind fun _ _ => ?_
  refine hclauses.filter.bind fun _ _ => ?_
  refine hclauses.order.bind fun _ _ => ?_
  exact hclauses.slice.bind_same

/-- The selection of a group level may be set to one that is read as it was. -/
theorem readGroups_insert_select {depth : Nat} {entries : Row} {w : Value}
    (h : ∀ keys, readGroupKeys (Keyed.get? "by" entries) = .ok keys →
      Keeps (d.operators.readGroupSelect keys (Keyed.get? "select" entries))
        (d.operators.readGroupSelect keys (some w))) :
    Keeps (d.readGroups depth (.map entries))
      (d.readGroups depth (.map (Keyed.insert "select" w entries))) := by
  refine readGroups_keeps (Section.check_insert (by decide) w entries) ?_ ?_ ?_ ?_
    (.insert d.operators (by decide) w entries)
  · rw [Keyed.get?_insert_of_ne (by decide)]
  · rw [Keyed.get?_insert_self]
    exact h
  · rw [Keyed.get?_insert_of_ne (by decide)]
  · rw [readGroupsAmong_insert_of_ne (by decide)]
    exact .refl

/-- **Group levels that are written out are the same group levels.** -/
theorem readGroups_expanded {v w : Value} (h : GroupExpands v w) (depth : Nat) :
    Keeps (d.readGroups depth v) (d.readGroups depth w) := by
  induction h generalizing depth with
  | clauses h =>
    have hget : ∀ key, key ∉ sharedClauses → _ := fun _ hkey => h.get?_of_notMem hkey
    refine readGroups_keeps (h.check (by decide)) ?_ (fun _ _ => ?_) (hget _ (by decide)) ?_
      (h.kept d.operators)
    · rw [hget "by" (by decide)]
    · rw [hget "select" (by decide)]
      exact .refl
    · rw [readGroupsAmong_congr (hget "group" (by decide))]
      exact .refl
  | @inner entries v w hv _ ih =>
    refine readGroups_keeps (Section.check_insert (by decide) w entries) ?_ (fun _ _ => ?_) ?_
      (readGroupsAmong_insert hv (ih _)) (.insert d.operators (by decide) w entries)
    · rw [Keyed.get?_insert_of_ne (by decide)]
    · rw [Keyed.get?_insert_of_ne (by decide)]
      exact .refl
    · rw [Keyed.get?_insert_of_ne (by decide)]
  | @key entries name hv =>
    refine readGroups_keeps (Section.check_insert (by decide) _ entries) ?_ (fun _ _ => ?_) ?_ ?_
      (.insert d.operators (by decide) _ entries)
    · rw [Keyed.get?_insert_self, hv, readGroupKeys_single]
    · rw [Keyed.get?_insert_of_ne (by decide)]
      exact .refl
    · rw [Keyed.get?_insert_of_ne (by decide)]
    · rw [readGroupsAmong_insert_of_ne (by decide)]
      exact .refl
  | @select entries items keys hv hkeys =>
    refine readGroups_insert_select fun keys' hread => ?_
    obtain rfl := Except.ok.inj (hkeys.symm.trans hread)
    rw [hv]
    exact keeps_iff.mpr fun _ hselect => OperatorTable.readGroupSelect_merged hselect
  | @noSelect entries keys v hnone hkeys hv =>
    refine readGroups_insert_select fun keys' hread => ?_
    obtain rfl := Except.ok.inj (hkeys.symm.trans hread)
    rw [hnone, d.operators.readGroupSelect_noSelect hv]
    exact .refl

end Dialect

end GraphQuery
