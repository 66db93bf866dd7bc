/-
# Rolling up totals

Rows are counted, and a column is summed, under the key values of some names.  The same rows come
out when this is done under more names first and the counts and sums are then summed under the
fewer ones (**`groupRows_rollUp`**).

* A part under the fewer names is made of parts under the more (`flatMap_finerParts_perm`), and the
  parts stand in the same order, since the first row of the first finer part is the first row of the
  coarser one (`map_key_coarser`).
* Counts and bounded sums of whole numbers add up over the finer parts (`sumOf_finerParts`).

The numbers have to stay exact on the way: the column holds no reals, its sizes add up to at most the
greatest number of 64 bits, and there are fewer rows than that, as there are in any list that fits
the memory.
-/
import GraphQuery.Proofs.Expression.Checks
import GraphQuery.Proofs.Expression.Sums
import GraphQuery.Proofs.Rows.GroupRows
import GraphQuery.Proofs.Rows.Partitions
import GraphQuery.Proofs.Value.Paths
import Mathlib.Algebra.Order.BigOperators.Group.List

namespace GraphQuery

open scoped List

/-! ## 1. Plain names -/

/-- A name that is a path of one segment: no point, not empty and not the wildcard. -/
structure PlainName (name : String) : Prop where
  ne_empty : name ≠ ""
  noPoint : '.' ∉ name.toList
  ne_wildcard : name ≠ Path.wildcard

theorem PlainName.ofText {name : String} (h : PlainName name) : Path.ofText name = [name] :=
  Path.ofText_of_noPoint h.ne_empty h.noPoint

/-! ## 2. Counting and summing -/

/-- The expression that counts the rows of a part. -/
def countRows : Value := .map [("$count", .null)]

/-- The expression that sums a column over the rows of a part. -/
def sumColumn (name : String) : Value := .map [("$sum", .map [("$pluck", .string name)])]

/-- The tags of these expressions have their operators. -/
structure OperatorTable.Totals (t : OperatorTable) : Prop where
  count : t.get? "$count" = some (.builtIn (.reduction .count))
  sum : t.get? "$sum" = some (.builtIn (.reduction .sum))
  pluck : t.get? "$pluck" = some (.builtIn (.access .pluck))

variable {t : OperatorTable}

theorem OperatorTable.checkExpression_of_get? {tag : String} {op : OperatorFn}
    (h : t.get? tag = some op) (operand : Value) :
    t.checkExpression (.map [(tag, operand)]) = .ok () :=
  OperatorTable.checkExpression_eq_ok_iff.mpr (OperatorTable.isExpression_of_get? h operand)

theorem evaluateRequired_countRows (ht : t.Totals) (items : List Value) :
    t.evaluateRequired countRows (.list items) = .ok (.int (Int64.ofNat items.length)) := by
  rw [OperatorTable.evaluateRequired, countRows, OperatorTable.checkExpression_of_get? ht.count,
    ok_bind, OperatorTable.evaluate_reduction ht.count]
  rfl

theorem evaluate_pluck (ht : t.Totals) {name : String} (hname : PlainName name) (rows : List Row) :
    t.evaluate (.map [("$pluck", .string name)]) (.list (rows.map .map)) =
      .ok (.list (rows.map fun row => Row.valueAt row name)) := by
  have hwildcard : [name].contains Path.wildcard = false := by
    simpa using Ne.symm hname.ne_wildcard
  have hfind : Access.pluck.find [name] (.list (rows.map .map)) =
      .list (rows.map fun row => Row.valueAt row name) := by
    rw [Access.find, Value.follow, if_pos rfl, hwildcard, Value.gather_false, List.map_map]
    exact congrArg _ (List.map_congr_left fun row _ => Value.follow_entry row name)
  rw [OperatorTable.evaluate_access ht.pluck]
  simp only [Access.read, Access.path, hname.ofText, Except.map, hfind]

theorem evaluateRequired_sumColumn (ht : t.Totals) {name : String} (hname : PlainName name)
    (rows : List Row) :
    t.evaluateRequired (sumColumn name) (.list (rows.map .map)) =
      .ok (Value.sumOf (rows.map fun row => Row.valueAt row name)) := by
  have hexpression : t.isExpression (.map [("$pluck", .string name)]) = true :=
    OperatorTable.isExpression_of_get? ht.pluck _
  rw [OperatorTable.evaluateRequired, sumColumn, OperatorTable.checkExpression_of_get? ht.sum,
    ok_bind, OperatorTable.evaluate_reduction ht.sum,
    OperatorTable.reducedItems_of_isExpression hexpression, evaluate_pluck ht hname]
  rfl

/-- A level that makes of each part a row of its key values and two aggregates. -/
def totalsLevel (names : List String) (n s : String) (counting summing : Value) : Group where
  keys := names
  select := Select.ofFields names
  aggregates := Keyed.ofList [(n, counting), (s, summing)]

theorem ofList_pair {α : Type} {n s : String} (h : n ≠ s) (a b : α) :
    Keyed.ofList [(n, a), (s, b)] = if s < n then [(s, b), (n, a)] else [(n, a), (s, b)] := by
  have hinsert : Keyed.ofList [(n, a), (s, b)] = Keyed.insert s b [(n, a)] := rfl
  rw [hinsert, Keyed.insert, if_neg (Ne.symm h)]
  rfl

theorem aggregate_totalsLevel {names : List String} {n s : String} (hns : n ≠ s)
    {counting summing c v : Value} {members : List Row}
    (hc : t.evaluateRequired counting (.list (members.map .map)) = .ok c)
    (hv : t.evaluateRequired summing (.list (members.map .map)) = .ok v) :
    (totalsLevel names n s counting summing).aggregate t members =
      .ok (Keyed.ofList [(n, c), (s, v)]) := by
  have haggregates : (totalsLevel names n s counting summing).aggregates =
      Keyed.ofList [(n, counting), (s, summing)] := rfl
  rw [GroupOf.aggregate, haggregates, ofList_pair hns, ofList_pair hns]
  split
  · simp only [List.mapM_cons, List.mapM_nil, hc, hv]
    rfl
  · simp only [List.mapM_cons, List.mapM_nil, hc, hv]
    rfl

/-- The row of a part with its two totals. -/
def totalsRow (names : List String) (n s : String) (key : List Value) (c v : Value) : Row :=
  keyedRow names key (Keyed.ofList [(n, c), (s, v)])

theorem level_totalsLevel {names : List String} {n s : String} (hns : n ≠ s)
    {counting summing : Value} {rows : List Row} {c v : Part → Value}
    (h : ∀ p ∈ partition names rows,
      t.evaluateRequired counting (.list (p.members.map .map)) = .ok (c p) ∧
        t.evaluateRequired summing (.list (p.members.map .map)) = .ok (v p)) :
    (totalsLevel names n s counting summing).level t rows =
      .ok ((partition names rows).map fun p => totalsRow names n s p.key (c p) (v p)) :=
  level_plain rfl rfl rfl rfl fun p hp => aggregate_totalsLevel hns (h p hp).1 (h p hp).2

section TotalsRow

variable {names : List String} {n s : String} (hns : n ≠ s) (row : Row) (c v : Value)

include hns in
theorem get?_totalsRow (name : String) :
    Keyed.get? name (totalsRow names n s (Row.keyValues names row) c v) =
      if n = name then some c
      else if s = name then some v
      else if name ∈ names then some (Row.valueAt row name) else none := by
  have hreverse : Keyed.get? name (Keyed.ofList [(n, c), (s, v)]).reverse =
      if n = name then some c else if s = name then some v else none := by
    rw [ofList_pair hns]
    by_cases hn : n = name
    · have hs : s ≠ name := fun hs => hns (hn.trans hs.symm)
      split <;> simp [Keyed.get?, hn, hs]
    · by_cases hs : s = name
      · split <;> simp [Keyed.get?, hn, hs]
      · split <;> simp [Keyed.get?, hn, hs]
  rw [totalsRow, get?_keyedRow, hreverse]
  split
  · rfl
  · split <;> rfl

include hns in
theorem valueAt_totalsRow_count :
    Row.valueAt (totalsRow names n s (Row.keyValues names row) c v) n = c := by
  rw [Row.valueAt, get?_totalsRow hns, if_pos rfl]
  rfl

include hns in
theorem valueAt_totalsRow_sum :
    Row.valueAt (totalsRow names n s (Row.keyValues names row) c v) s = v := by
  rw [Row.valueAt, get?_totalsRow hns, if_neg hns, if_pos rfl]
  rfl

include hns in
theorem valueAt_totalsRow_key (hn : n ∉ names) (hs : s ∉ names) {name : String}
    (hname : name ∈ names) :
    Row.valueAt (totalsRow names n s (Row.keyValues names row) c v) name =
      Row.valueAt row name := by
  have hne : n ≠ name := fun heq => hn (heq ▸ hname)
  have hne' : s ≠ name := fun heq => hs (heq ▸ hname)
  rw [Row.valueAt, get?_totalsRow hns, if_neg hne, if_neg hne', if_pos hname]
  rfl

end TotalsRow

/-! ## 3. Tallies -/

/-- The exact sum of a weight over rows, as 64 bits. -/
def tally (w : Row → Int) (rows : List Row) : Value := .int (Int64.ofInt (rows.map w).sum)

/-- The sizes of the weights of rows add up to less than `2 ^ 63`. -/
def Bounded (w : Row → Int) (rows : List Row) : Prop :=
  (rows.map fun row => (w row).natAbs).sum < 0x8000000000000000

theorem Bounded.filter {w : Row → Int} {rows : List Row} (h : Bounded w rows)
    (keep : Row → Bool) : Bounded w (rows.filter keep) := by
  refine Nat.lt_of_le_of_lt ?_ h
  induction rows with
  | nil => exact Nat.le_refl _
  | cons row rest ih =>
    have hrest : Bounded w rest := by
      unfold Bounded at h ⊢
      rw [List.map_cons, List.sum_cons] at h
      omega
    have ih := ih hrest
    rw [List.filter_cons]
    split
    · rw [List.map_cons, List.map_cons, List.sum_cons, List.sum_cons]
      exact Nat.add_le_add_left ih _
    · rw [List.map_cons, List.sum_cons]
      omega

theorem Bounded.natAbs_sum_le {w : Row → Int} (rows : List Row) :
    (rows.map w).sum.natAbs ≤ (rows.map fun row => (w row).natAbs).sum := by
  have h := Value.natAbs_sum_le (rows.map w)
  rw [List.map_map] at h
  exact h

theorem Bounded.whole_tally {w : Row → Int} {rows : List Row} (h : Bounded w rows) :
    (tally w rows).whole = (rows.map w).sum :=
  Value.toInt_ofInt_of_natAbs_lt (Nat.lt_of_le_of_lt (Bounded.natAbs_sum_le rows) h)

/-- The weight of a row in a count. -/
def one (_ : Row) : Int := 1

/-- The weight of a row in the sum of a column. -/
def column (name : String) (row : Row) : Int := (Row.valueAt row name).whole

theorem bounded_one {rows : List Row} (h : rows.length < 0x8000000000000000) :
    Bounded one rows := by
  have hsum : (rows.map fun row => (one row).natAbs).sum = rows.length := by simp [one]
  rw [Bounded, hsum]
  exact h

theorem evaluateRequired_countRows_eq_tally (ht : t.Totals) (rows : List Row) :
    t.evaluateRequired countRows (.list (rows.map .map)) = .ok (tally one rows) := by
  have hsum : (rows.map fun _ => (1 : Int)).sum = (rows.length : Int) := by simp
  change (rows.map one).sum = _ at hsum
  rw [evaluateRequired_countRows ht, List.length_map, tally, hsum, Int64.ofInt_eq_ofNat]

theorem evaluateRequired_sumColumn_eq_tally (ht : t.Totals) {name : String}
    (hname : PlainName name) {rows : List Row}
    (hwhole : ∀ row ∈ rows, ∀ x, Row.valueAt row name ≠ .float x)
    (hbound : Bounded (column name) rows) :
    t.evaluateRequired (sumColumn name) (.list (rows.map .map)) =
      .ok (tally (column name) rows) := by
  have hsize : Value.totalSize (rows.map fun row => Row.valueAt row name) =
      (rows.map fun row => (column name row).natAbs).sum := by
    rw [Value.totalSize, List.map_map]
    rfl
  have htotal : Value.total (rows.map fun row => Row.valueAt row name) =
      (rows.map (column name)).sum := by
    rw [Value.total, List.map_map]
    rfl
  have hfloat : ∀ x, Value.float x ∉ rows.map fun row => Row.valueAt row name := by
    intro x hx
    obtain ⟨row, hrow, heq⟩ := List.mem_map.mp hx
    exact hwhole row hrow x heq
  rw [evaluateRequired_sumColumn ht hname, Value.sumOf_of_bounded hfloat (hsize ▸ hbound), htotal]
  rfl

/-! ## 4. Finer parts -/

section Finer

variable {coarse fine : List String} {rows : List Row}

theorem FiniteKeys.of_subset (hfinite : FiniteKeys fine rows)
    (hsub : ∀ name ∈ coarse, name ∈ fine) : FiniteKeys coarse rows :=
  fun row hrow name hname => hfinite row hrow name (hsub name hname)

/-- The part of a key that stands under fewer names. -/
def coarsen (fine coarse : List String) (key : List Value) : List Value :=
  Row.keyValues coarse (fine.zip key)

theorem coarsen_keyValues (hsub : ∀ name ∈ coarse, name ∈ fine) (row : Row) :
    coarsen fine coarse (Row.keyValues fine row) = Row.keyValues coarse row := by
  refine List.map_congr_left fun name hname => ?_
  rw [zip_keyValues, Row.valueAt, Keyed.get?_map_names, if_pos (hsub name hname)]
  rfl

/-- The key of a part is that of some row.  Of the one part without names and rows it is that of any
row. -/
theorem exists_key_of_mem_partition (hfinite : FiniteKeys fine rows) {p : Part}
    (hp : p ∈ partition fine rows) :
    ∃ first, p.key = Row.keyValues fine first ∧
      ∀ name ∈ fine, (Row.valueAt first name).AllFinite := by
  by_cases hfine : fine = []
  · subst hfine
    rw [partition_nil, List.mem_singleton] at hp
    exact ⟨[], by rw [hp]; rfl, nofun⟩
  · have hkey : p.key ∈ (partition fine rows).map Part.key := List.mem_map_of_mem hp
    rw [map_key_partition hfine hfinite, List.mem_eraseDups] at hkey
    obtain ⟨first, hfirst, heq⟩ := List.mem_map.mp hkey
    exact ⟨first, heq.symm, hfinite first hfirst⟩

theorem flatMap_filter_eq {α β : Type} (keep : α → Bool) (f : α → List β) (xs : List α) :
    (xs.filter keep).flatMap f = xs.flatMap fun x => if keep x then f x else [] := by
  induction xs with
  | nil => rfl
  | cons x rest ih =>
    rw [List.filter_cons, List.flatMap_cons, ← ih]
    split
    · rfl
    · rfl

/-- **A part under fewer names is made of parts under more names.** -/
theorem flatMap_finerParts_perm (hsub : ∀ name ∈ coarse, name ∈ fine)
    (hfinite : FiniteKeys fine rows) (key : List Value) :
    ((partition fine rows).filter fun p => coarsen fine coarse p.key == key).flatMap Part.members ~
      rows.filter fun row => Row.keyValues coarse row == key := by
  have hperm := (flatMap_members_perm hfinite).filter fun row => Row.keyValues coarse row == key
  rw [List.filter_flatMap] at hperm
  rw [flatMap_filter_eq]
  refine List.Perm.trans (List.Perm.of_eq (List.flatMap_congr fun p hp => ?_)) hperm
  -- all rows of a finer part have the same key under the fewer names
  have hkey : ∀ row ∈ p.members, Row.keyValues coarse row = coarsen fine coarse p.key := by
    intro row hrow
    rw [← ((mem_members_iff hfinite hp).mp hrow).2, coarsen_keyValues hsub]
  split
  · next heq =>
    refine (List.filter_eq_self.mpr fun row hrow => ?_).symm
    rw [hkey row hrow]
    exact heq
  · next hne =>
    refine (List.filter_eq_nil_iff.mpr fun row hrow => ?_).symm
    rw [hkey row hrow]
    exact hne

/-- What is added up over the rows of the finer parts is added up over the rows of the part. -/
theorem sum_finerParts {M : Type} [AddCommMonoid M] (hsub : ∀ name ∈ coarse, name ∈ fine)
    (hfinite : FiniteKeys fine rows) (key : List Value) (w : Row → M) :
    (((partition fine rows).filter fun p => coarsen fine coarse p.key == key).map fun p =>
        (p.members.map w).sum).sum =
      ((rows.filter fun row => Row.keyValues coarse row == key).map w).sum := by
  rw [← ((flatMap_finerParts_perm hsub hfinite key).map w).sum_eq, List.map_flatMap,
    List.flatMap_def, List.sum_flatten, List.map_map]
  rfl

/-- **Bounded tallies of the finer parts add up to the tally of the part.** -/
theorem sumOf_finerParts (hsub : ∀ name ∈ coarse, name ∈ fine) (hfinite : FiniteKeys fine rows)
    {w : Row → Int} (hbound : Bounded w rows) (key : List Value) :
    Value.sumOf (((partition fine rows).filter fun p => coarsen fine coarse p.key == key).map
        fun p => tally w p.members) =
      tally w (rows.filter fun row => Row.keyValues coarse row == key) := by
  have hpart : ∀ p ∈ partition fine rows, Bounded w p.members := by
    intro p hp
    rw [members_of_mem_partition hfinite hp]
    exact hbound.filter _
  have hwhole : ∀ p ∈ (partition fine rows).filter (fun p => coarsen fine coarse p.key == key),
      (tally w p.members).whole = (p.members.map w).sum :=
    fun p hp => (hpart p (List.mem_of_mem_filter hp)).whole_tally
  have htotal : Value.total (((partition fine rows).filter
        fun p => coarsen fine coarse p.key == key).map fun p => tally w p.members) =
      ((rows.filter fun row => Row.keyValues coarse row == key).map w).sum := by
    rw [Value.total, List.map_map, ← sum_finerParts hsub hfinite key w]
    exact congrArg _ (List.map_congr_left hwhole)
  have hsize : Value.totalSize (((partition fine rows).filter
        fun p => coarsen fine coarse p.key == key).map fun p => tally w p.members) ≤
      ((rows.filter fun row => Row.keyValues coarse row == key).map fun row =>
        (w row).natAbs).sum := by
    rw [Value.totalSize, List.map_map,
      ← sum_finerParts hsub hfinite key fun row => (w row).natAbs]
    refine List.sum_le_sum fun p hp => ?_
    rw [Function.comp_apply, hwhole p hp]
    exact Bounded.natAbs_sum_le p.members
  have hfloat : ∀ x, Value.float x ∉ ((partition fine rows).filter
      fun p => coarsen fine coarse p.key == key).map fun p => tally w p.members := by
    intro x hx
    obtain ⟨p, -, heq⟩ := List.mem_map.mp hx
    exact Value.noConfusion heq
  rw [Value.sumOf_of_bounded hfloat (Nat.lt_of_le_of_lt hsize (hbound.filter _)), htotal]
  rfl

end Finer

/-! ## 5. Levels of totals -/

/-- The first of each of some labels are the first of each among the first of each item. -/
theorem eraseDups_map_eraseDups {α β : Type} [BEq α] [LawfulBEq α] [BEq β] [LawfulBEq β]
    (f : α → β) (xs : List α) : (xs.eraseDups.map f).eraseDups = (xs.map f).eraseDups := by
  classical
  induction xs using List.reverseRecOn with
  | nil => rfl
  | append_singleton xs x ih =>
    have hmem : f x ∈ xs.eraseDups.map f ↔ f x ∈ xs.map f := by
      simp only [List.mem_map, List.mem_eraseDups]
    rw [List.map_append, List.map_singleton, eraseDups_concat, eraseDups_concat]
    by_cases hx : x ∈ xs
    · rw [if_pos hx, if_pos (List.mem_map_of_mem hx), ih]
    · rw [if_neg hx, List.map_append, List.map_singleton, eraseDups_concat, ih]
      simp only [hmem]

section Levels

variable {coarse fine : List String} {rows : List Row} {n s f : String}

/-- The rows of a level of totals. -/
def totalsRows (names : List String) (n s f : String) (rows : List Row) : List Row :=
  (partition names rows).map fun p =>
    totalsRow names n s p.key (tally one p.members) (tally (column f) p.members)

/-- What a level of totals is asked for: a plain column of bounded whole numbers, and fewer rows
than the count can hold. -/
structure Summable (f : String) (rows : List Row) : Prop where
  whole : ∀ row ∈ rows, ∀ x, Row.valueAt row f ≠ .float x
  bounded : Bounded (column f) rows
  length : rows.length < 0x8000000000000000

/-- **A level of totals makes the tallies of its parts.** -/
theorem level_totals (ht : t.Totals) (hf : PlainName f) (hns : n ≠ s)
    (hfinite : FiniteKeys fine rows) (hrows : Summable f rows) :
    (totalsLevel fine n s countRows (sumColumn f)).level t rows =
      .ok (totalsRows fine n s f rows) := by
  refine level_totalsLevel hns fun p hp => ⟨evaluateRequired_countRows_eq_tally ht _,
    evaluateRequired_sumColumn_eq_tally ht hf (fun row hrow => ?_) ?_⟩
  · exact hrows.whole row ((mem_members_iff hfinite hp).mp hrow).1
  · rw [members_of_mem_partition hfinite hp]
    exact hrows.bounded.filter _

theorem keyValues_totalsRow (hns : n ≠ s) (hn : n ∉ fine) (hs : s ∉ fine)
    (hsub : ∀ name ∈ coarse, name ∈ fine) (row : Row) (c v : Value) :
    Row.keyValues coarse (totalsRow fine n s (Row.keyValues fine row) c v) =
      Row.keyValues coarse row :=
  List.map_congr_left fun name hname => valueAt_totalsRow_key hns row c v hn hs (hsub name hname)

theorem finiteKeys_totalsRows (hns : n ≠ s) (hn : n ∉ fine) (hs : s ∉ fine)
    (hsub : ∀ name ∈ coarse, name ∈ fine) (hfinite : FiniteKeys fine rows) :
    FiniteKeys coarse (totalsRows fine n s f rows) := by
  intro made hmade name hname
  obtain ⟨p, hp, rfl⟩ := List.mem_map.mp hmade
  obtain ⟨first, hkey, hfirst⟩ := exists_key_of_mem_partition hfinite hp
  rw [hkey, valueAt_totalsRow_key hns first _ _ hn hs (hsub name hname)]
  exact hfirst name (hsub name hname)

/-- The rows of a part under the fewer names are the rows of its finer parts. -/
theorem filter_totalsRows (hns : n ≠ s) (hn : n ∉ fine) (hs : s ∉ fine)
    (hsub : ∀ name ∈ coarse, name ∈ fine) (hfinite : FiniteKeys fine rows) (key : List Value) :
    (totalsRows fine n s f rows).filter (fun row => Row.keyValues coarse row == key) =
      ((partition fine rows).filter fun p => coarsen fine coarse p.key == key).map fun p =>
        totalsRow fine n s p.key (tally one p.members) (tally (column f) p.members) := by
  rw [totalsRows, List.filter_map]
  refine congrArg _ (List.filter_congr fun p hp => ?_)
  obtain ⟨first, hkey, -⟩ := exists_key_of_mem_partition hfinite hp
  rw [Function.comp_apply, hkey, keyValues_totalsRow hns hn hs hsub, coarsen_keyValues hsub]

/-- **The keys of the regrouped rows are those of the rows**, in the same order. -/
theorem map_key_coarser (hns : n ≠ s) (hn : n ∉ fine) (hs : s ∉ fine)
    (hsub : ∀ name ∈ coarse, name ∈ fine) (hfinite : FiniteKeys fine rows) :
    (partition coarse (totalsRows fine n s f rows)).map Part.key =
      (partition coarse rows).map Part.key := by
  by_cases hcoarse : coarse = []
  · subst hcoarse
    rfl
  · have hfine : fine ≠ [] := by
      obtain ⟨name, rest, rfl⟩ := List.exists_cons_of_ne_nil hcoarse
      exact List.ne_nil_of_mem (hsub name List.mem_cons_self)
    have hmade : (totalsRows fine n s f rows).map (Row.keyValues coarse) =
        ((partition fine rows).map Part.key).map (coarsen fine coarse) := by
      rw [totalsRows, List.map_map, List.map_map]
      refine List.map_congr_left fun p hp => ?_
      obtain ⟨first, hkey, -⟩ := exists_key_of_mem_partition hfinite hp
      rw [Function.comp_apply, Function.comp_apply, hkey, keyValues_totalsRow hns hn hs hsub,
        coarsen_keyValues hsub]
    have hcomp : (rows.map (Row.keyValues fine)).map (coarsen fine coarse) =
        rows.map (Row.keyValues coarse) := by
      rw [List.map_map]
      exact List.map_congr_left fun row _ => coarsen_keyValues hsub row
    rw [map_key_partition hcoarse (finiteKeys_totalsRows hns hn hs hsub hfinite), hmade,
      map_key_partition hfine hfinite, eraseDups_map_eraseDups, hcomp,
      map_key_partition hcoarse (hfinite.of_subset hsub)]

/-- A column of tallies, summed over the regrouped rows of a part, is the tally of the part. -/
theorem evaluateRequired_sumColumn_tallies (ht : t.Totals) (hns : n ≠ s) (hn : n ∉ fine)
    (hs : s ∉ fine) (hsub : ∀ name ∈ coarse, name ∈ fine) (hfinite : FiniteKeys fine rows)
    {name : String} (hname : PlainName name) {w : Row → Int} (hbound : Bounded w rows)
    (hvalue : ∀ p ∈ partition fine rows,
      Row.valueAt (totalsRow fine n s p.key (tally one p.members) (tally (column f) p.members)) name =
        tally w p.members)
    {p : Part} (hp : p ∈ partition coarse (totalsRows fine n s f rows)) :
    t.evaluateRequired (sumColumn name) (.list (p.members.map .map)) =
      .ok (tally w (rows.filter fun row => Row.keyValues coarse row == p.key)) := by
  have htallies : p.members.map (fun row => Row.valueAt row name) =
      ((partition fine rows).filter fun q => coarsen fine coarse q.key == p.key).map
        fun q => tally w q.members := by
    rw [members_of_mem_partition (finiteKeys_totalsRows hns hn hs hsub hfinite) hp,
      filter_totalsRows hns hn hs hsub hfinite, List.map_map]
    exact List.map_congr_left fun q hq => hvalue q (List.mem_of_mem_filter hq)
  rw [evaluateRequired_sumColumn ht hname, htallies, sumOf_finerParts hsub hfinite hbound]

/-- **Totals of totals.**  The level that sums the counts and the sums under fewer names makes the
totals of the rows themselves. -/
theorem level_totals_of_totals (ht : t.Totals) (hnplain : PlainName n) (hsplain : PlainName s)
    (hns : n ≠ s) (hn : n ∉ fine) (hs : s ∉ fine) (hsub : ∀ name ∈ coarse, name ∈ fine)
    (hfinite : FiniteKeys fine rows) (hrows : Summable f rows) :
    (totalsLevel coarse n s (sumColumn n) (sumColumn s)).level t (totalsRows fine n s f rows) =
      .ok (totalsRows coarse n s f rows) := by
  have hlevel : (totalsLevel coarse n s (sumColumn n) (sumColumn s)).level t
      (totalsRows fine n s f rows) =
        .ok ((partition coarse (totalsRows fine n s f rows)).map fun p =>
          totalsRow coarse n s p.key
            (tally one (rows.filter fun row => Row.keyValues coarse row == p.key))
            (tally (column f) (rows.filter fun row => Row.keyValues coarse row == p.key))) := by
    refine level_totalsLevel hns fun p hp => ⟨?_, ?_⟩
    · refine evaluateRequired_sumColumn_tallies ht hns hn hs hsub hfinite hnplain
        (bounded_one hrows.length) (fun q hq => ?_) hp
      obtain ⟨first, hkey, -⟩ := exists_key_of_mem_partition hfinite hq
      rw [hkey, valueAt_totalsRow_count hns]
    · refine evaluateRequired_sumColumn_tallies ht hns hn hs hsub hfinite hsplain hrows.bounded
        (fun q hq => ?_) hp
      obtain ⟨first, hkey, -⟩ := exists_key_of_mem_partition hfinite hq
      rw [hkey, valueAt_totalsRow_sum hns]
  -- rows and parts of both groupings are functions of the keys
  have hdirect : totalsRows coarse n s f rows = ((partition coarse rows).map Part.key).map
      fun key => totalsRow coarse n s key
        (tally one (rows.filter fun row => Row.keyValues coarse row == key))
        (tally (column f) (rows.filter fun row => Row.keyValues coarse row == key)) := by
    rw [totalsRows, List.map_map]
    refine List.map_congr_left fun p hp => ?_
    rw [Function.comp_apply, ← members_of_mem_partition (hfinite.of_subset hsub) hp]
  rw [hlevel, hdirect, ← map_key_coarser hns hn hs hsub hfinite (f := f), List.map_map]
  rfl

end Levels

/-- **Rolling up.**  Rows are counted and a column is summed, each with its own name, once under the
names `coarse`, and once under the names `fine`, among which those are, and the totals then summed
under `coarse`.  Both succeed with the same rows in the same order, with or without rows and names.

That there are fewer than `2 ^ 63` rows holds of all lists in memory. -/
theorem groupRows_rollUp (ht : t.Totals) {coarse fine : List String} {f n s : String}
    (hsub : ∀ name ∈ coarse, name ∈ fine) (hf : PlainName f) (hnplain : PlainName n)
    (hsplain : PlainName s) (hns : n ≠ s) (hn : n ∉ fine) (hs : s ∉ fine) {rows : List Row}
    (hfinite : FiniteKeys fine rows) (hwhole : ∀ row ∈ rows, ∀ x, Row.valueAt row f ≠ .float x)
    (hbound : (rows.map fun row => (Row.valueAt row f).whole.natAbs).sum ≤ 0x7fffffffffffffff)
    (hlength : rows.length < 0x8000000000000000) :
    ∃ out,
      groupRows t [totalsLevel fine n s countRows (sumColumn f),
        totalsLevel coarse n s (sumColumn n) (sumColumn s)] rows = .ok out ∧
      groupRows t [totalsLevel coarse n s countRows (sumColumn f)] rows = .ok out := by
  have hrows : Summable f rows := ⟨hwhole, Nat.lt_succ_of_le hbound, hlength⟩
  refine ⟨totalsRows coarse n s f rows, ?_, ?_⟩
  · rw [groupRows, level_totals ht hf hns hfinite hrows, ok_bind, groupRows,
      level_totals_of_totals ht hnplain hsplain hns hn hs hsub hfinite hrows]
    rfl
  · rw [groupRows, level_totals ht hf hns (hfinite.of_subset hsub) hrows]
    rfl

/-- Matches per team, from matches per team and age group; a match without a score counts. -/
theorem groupRows_rollUp_matches :
    let rows : List Row := [
      [("ageGroup", .int 11), ("goals", .int 3), ("team", .string "Bears")],
      [("ageGroup", .int 12), ("goals", .int 4), ("team", .string "Cousins")],
      [("ageGroup", .int 12), ("goals", .string "?"), ("team", .string "Bears")],
      [("goals", .int 2), ("team", .string "Bears")]]
    groupRows .standard [totalsLevel ["team", "ageGroup"] "matches" "goals" countRows
          (sumColumn "goals"),
        totalsLevel ["team"] "matches" "goals" (sumColumn "matches") (sumColumn "goals")] rows =
      .ok [
        [("goals", .int 5), ("matches", .int 3), ("team", .string "Bears")],
        [("goals", .int 4), ("matches", .int 1), ("team", .string "Cousins")]] := by
  intro rows
  have hplain : PlainName "goals" ∧ PlainName "matches" :=
    ⟨⟨by decide, by decide, by decide⟩, ⟨by decide, by decide, by decide⟩⟩
  have hfinite : FiniteKeys ["team", "ageGroup"] rows := by
    simp only [FiniteKeys, rows, List.forall_mem_cons, List.not_mem_nil, false_implies,
      implies_true, and_true]
    exact ⟨⟨.string, .int⟩, ⟨.string, .int⟩, ⟨.string, .int⟩, ⟨.string, .null⟩⟩
  have hwhole : ∀ row ∈ rows, ∀ x, Row.valueAt row "goals" ≠ .float x := by
    simp [rows, Row.valueAt, Keyed.get?]
  obtain ⟨out, hrolled, hdirect⟩ := @groupRows_rollUp .standard ⟨rfl, rfl, rfl⟩ ["team"]
    ["team", "ageGroup"] "goals" "matches" "goals" (by decide) hplain.1 hplain.2 hplain.1
    (by decide) (by decide) (by decide) rows hfinite hwhole (by decide +kernel) (by decide)
  rw [hrolled, ← hdirect]
  decide +kernel

end GraphQuery
