/-
# The names in group rows

A group row carries the names that its level selects and those of its aggregates
(`GroupOf.outputs`).  An aggregate and an expression always make an entry; a field does where the
context has it, and a level that was checked (`GroupOf.check_eq_ok_iff`) selects its keys and
aggregates only (`GroupOf.Closed`), which the context of every part has.

So **every row that group levels make has the names of the last level, and no others**
(`hasOutputs_of_mem_groupRows`).
-/
import GraphQuery.Proofs.Ordering.Anchors
import GraphQuery.Proofs.Query.NormalForm
import GraphQuery.Proofs.Rows.Partitions
import GraphQuery.Query.Validation

namespace GraphQuery

/-! ## 1. What the check of a level says -/

theorem requireKnown_eq_ok_iff {within : String} {known : String → Bool} {names : List String} :
    requireKnown within known names = .ok () ↔ ∀ name ∈ names, known name = true := by
  unfold requireKnown
  split
  · next name hfind =>
    refine iff_of_false (by simp) fun h => ?_
    have hunknown : known name = false := by simpa using List.find?_some hfind
    exact absurd (h name (List.mem_of_find?_eq_some hfind)) (by simp [hunknown])
  · next hfind => simpa using hfind

theorem Filter.check_eq_ok_iff {within : String} {known : String → Bool} {filter : Option Filter} :
    Filter.check within known filter = .ok () ↔
      ∀ path ∈ filter.elim [] Filter.paths, known (Path.headOf path) = true := by
  cases filter with
  | none => exact iff_of_true rfl nofun
  | some f => exact requireKnown_eq_ok_iff

theorem Select.mem_sources {select : Select} {source : String} :
    source ∈ Select.sources select ↔ ∃ key, (key, .field source) ∈ select := by
  rw [Select.sources, List.mem_filterMap]
  constructor
  · rintro ⟨⟨key, s⟩, he, hs⟩
    cases s with
    | field => exact ⟨key, Option.some.inj hs ▸ he⟩
    | _ => cases hs
  · rintro ⟨key, he⟩
    exact ⟨_, he, rfl⟩

namespace GroupOf

/-- The selected fields of a level are among its keys and aggregates. -/
def Closed (g : Group) : Prop :=
  ∀ source ∈ Select.sources g.select, source ∈ g.keys ∨ source ∈ Keyed.keys g.aggregates

/-- The names under which a level reads the rows that it is given: its keys, and those with which its
aggregates pluck, as far as they can be told. -/
def inputNames (g : Group) : List String := g.keys ++ pluckedHeadsOfEntries g.aggregates

/-- The names under which the filter and the order of a level read its rows. -/
def clauseNames (g : Group) : List String :=
  (g.filter.elim [] Filter.paths).map Path.headOf ++ g.order.map OrderKey.field

/-- **What the check of a level asks for**: the names that it reads are known, those that it reads in
its own rows are its outputs, and the slice fits the order. -/
theorem check_eq_ok_iff {within : String} {known : List String} {g : Group} :
    g.check within known = .ok () ↔
      g.inputNames ⊆ known ∧ g.Closed ∧ g.clauseNames ⊆ g.outputs ∧
        g.slice.check g.order = .ok () := by
  simp only [check, check_bind_eq_ok, checkOrder, requireKnown_eq_ok_iff, Filter.check_eq_ok_iff,
    List.contains_iff_mem, Bool.or_eq_true, Keyed.contains_iff, inputNames, clauseNames, Closed,
    List.subset_def, List.forall_mem_append, List.forall_mem_map]
  tauto

end GroupOf

/-- The names that are known behind some levels: the outputs of the last one. -/
def namesBehind (known : List String) (groups : List Group) : List String :=
  groups.getLast?.elim known GroupOf.outputs

/-- Every level was checked against the outputs of the one before it. -/
theorem exists_check_of_checkGroups_append {within : String} {known : List String}
    {outer inner : List Group} {g : Group}
    (h : checkGroups within known (outer ++ g :: inner) = .ok ()) :
    ∃ within, g.check within (namesBehind known outer) = .ok () := by
  induction outer generalizing within known with
  | nil =>
    rw [List.nil_append, checkGroups, check_bind_eq_ok] at h
    exact ⟨within, h.1⟩
  | cons first rest ih =>
    rw [List.cons_append, checkGroups, check_bind_eq_ok] at h
    obtain ⟨within', hcheck⟩ := ih h.2
    refine ⟨within', ?_⟩
    have hbehind : namesBehind known (first :: rest) = namesBehind first.outputs rest := by
      rw [namesBehind, namesBehind, List.getLast?_cons]
      cases rest.getLast? <;> rfl
    rwa [hbehind]

theorem exists_check_of_checkGroups {within : String} {known : List String} {groups : List Group}
    (h : checkGroups within known groups = .ok ()) :
    ∀ g ∈ groups, ∃ within known, g.check within known = .ok () := by
  intro g hg
  obtain ⟨outer, inner, rfl⟩ := List.append_of_mem hg
  obtain ⟨within', hcheck⟩ := exists_check_of_checkGroups_append h
  exact ⟨within', _, hcheck⟩

/-! ## 2. The context of a part -/

namespace GroupOf

variable {t : OperatorTable} {g : Group} {row : Row} {rows : List Row}

/-- A part has a value for every key. -/
theorem length_key_of_mem_partition {names : List String} {p : Part}
    (h : p ∈ partition names rows) : p.key.length = names.length := by
  by_cases hnames : names = []
  · rw [hnames, partition_nil, List.mem_singleton] at h
    rw [h, hnames]
    rfl
  · rw [partition_of_ne_nil hnames] at h
    obtain ⟨e, he, rfl⟩ := List.mem_map.mp h
    obtain ⟨first, -, -, hkey⟩ := (partsBySignature_collects names rows).first he
    rw [← hkey, Row.keyValues, List.length_map]

theorem keys_aggregate {members : List Row} {aggregates : Row}
    (h : g.aggregate t members = .ok aggregates) :
    Keyed.keys aggregates = Keyed.keys g.aggregates := by
  rw [aggregate, mapM_eq_ok_iff] at h
  generalize g.aggregates = entries at h ⊢
  induction h with
  | nil => rfl
  | cons hx _ ih =>
    obtain ⟨v, -, hv⟩ := bind_eq_ok.mp hx
    rw [← pure_eq_ok.mp hv]
    exact congrArg (List.cons _) ih

theorem mem_keys_context {p : Part} (hlength : p.key.length = g.keys.length) {aggregates : Row}
    {name : String} :
    name ∈ Keyed.keys (g.context p aggregates) ↔ name ∈ g.keys ∨ name ∈ Keyed.keys aggregates := by
  have hzip : Keyed.keys (g.keys.zip p.key) = g.keys := List.map_fst_zip (Nat.le_of_eq hlength.symm)
  rw [context, Keyed.mem_keys_overlay, Keyed.mem_keys_ofList, hzip]

/-! ## 3. The row of a part -/

/-- From a context that has all selected fields every selected name gets an entry. -/
theorem keys_fromContext {select : Select} {context : Row}
    (hnormal : ∀ e ∈ select, e.2.GroupNormal t)
    (hsources : ∀ source ∈ Select.sources select, source ∈ Keyed.keys context)
    (h : Select.fromContext t context select = .ok row) : Keyed.keys row = Keyed.keys select := by
  induction select generalizing row with
  | nil => rw [← Except.ok.inj h]; rfl
  | cons e rest ih =>
    obtain ⟨key, s⟩ := e
    obtain ⟨hs, hothers⟩ := List.forall_mem_cons.mp hnormal
    have hrest : ∀ source ∈ Select.sources rest, source ∈ Keyed.keys context := by
      intro source hsource
      obtain ⟨k, hk⟩ := Select.mem_sources.mp hsource
      exact hsources source (Select.mem_sources.mpr ⟨k, List.mem_cons_of_mem _ hk⟩)
    cases s with
    | field source =>
      rw [Select.fromContext, bind_eq_ok] at h
      obtain ⟨row', hrow', h⟩ := h
      have hsource : source ∈ Keyed.keys context :=
        hsources source (Select.mem_sources.mpr ⟨key, List.mem_cons_self⟩)
      split at h
      · rw [← pure_eq_ok.mp h]
        exact congrArg (List.cons key) (ih hothers hrest hrow')
      · next hnone => exact absurd hsource (Keyed.get?_eq_none_iff.mp hnone)
    | expression e =>
      rw [Select.fromContext, bind_eq_ok] at h
      obtain ⟨v, -, h⟩ := h
      obtain ⟨row', hrow', h⟩ := bind_eq_ok.mp h
      rw [← pure_eq_ok.mp h]
      exact congrArg (List.cons key) (ih hothers hrest hrow')
    | subquery q => exact absurd hs id

/-- The names of a row are the outputs of the level. -/
def HasOutputs (g : Group) (row : Row) : Prop :=
  ∀ name, name ∈ Keyed.keys row ↔ name ∈ g.outputs

/-- **The row of a part has the outputs of its level.** -/
theorem hasOutputs_of_rowOf (hnormal : g.Normal t) (hclosed : g.Closed) {p : Part}
    (hlength : p.key.length = g.keys.length) (h : g.rowOf t p = .ok row) : g.HasOutputs row := by
  obtain ⟨aggregates, haggregates, h⟩ := bind_eq_ok.mp h
  obtain ⟨selected, hselected, h⟩ := bind_eq_ok.mp h
  have haggs : Keyed.keys aggregates = Keyed.keys g.aggregates := keys_aggregate haggregates
  have hsources : ∀ source ∈ Select.sources g.select,
      source ∈ Keyed.keys (g.context p aggregates) := fun source hsource => by
    rw [mem_keys_context hlength, haggs]
    exact hclosed source hsource
  intro name
  rw [← pure_eq_ok.mp h, Keyed.mem_keys_overlay, keys_fromContext hnormal.select hsources hselected,
    haggs, outputs, List.mem_append]

/-! ## 4. Levels -/

theorem exists_part_of_mem_rowsOf {parts : List Part} (h : g.rowsOf t parts = .ok rows)
    (hrow : row ∈ rows) : ∃ p ∈ parts, g.rowOf t p = .ok row := by
  induction parts generalizing rows with
  | nil => rw [← Except.ok.inj h] at hrow; cases hrow
  | cons p rest ih =>
    obtain ⟨made, hmade, h⟩ := bind_eq_ok.mp h
    obtain ⟨kept, -, h⟩ := bind_eq_ok.mp h
    obtain ⟨others, hothers, h⟩ := bind_eq_ok.mp h
    have hcases : row = made ∨ row ∈ others := by
      rw [← pure_eq_ok.mp h] at hrow
      cases kept with
      | true => exact List.mem_cons.mp hrow
      | false => exact Or.inr hrow
    rcases hcases with rfl | hmem
    · exact ⟨p, List.mem_cons_self, hmade⟩
    · obtain ⟨p', hp', hrowOf⟩ := ih hothers hmem
      exact ⟨p', List.mem_cons_of_mem _ hp', hrowOf⟩

/-- Every row of a level is the row of a part. -/
theorem exists_part_of_mem_level {made : List Row} (h : g.level t rows = .ok made)
    (hrow : row ∈ made) : ∃ p ∈ partition g.keys rows, g.rowOf t p = .ok row := by
  obtain ⟨all, hall, h⟩ := bind_eq_ok.mp h
  exact exists_part_of_mem_rowsOf (QueryError.ofExpr_eq_ok.mp hall) (mem_of_mem_arrange h hrow)

theorem hasOutputs_of_mem_level (hnormal : g.Normal t) (hclosed : g.Closed) {made : List Row}
    (h : g.level t rows = .ok made) (hrow : row ∈ made) : g.HasOutputs row := by
  obtain ⟨p, hp, hrowOf⟩ := exists_part_of_mem_level h hrow
  exact hasOutputs_of_rowOf hnormal hclosed (length_key_of_mem_partition hp) hrowOf

end GroupOf

/-- **Every row that group levels make has the outputs of the last level.** -/
theorem hasOutputs_of_mem_groupRows {t : OperatorTable} {groups : List Group}
    (hgroups : ∀ g ∈ groups, g.Normal t ∧ g.Closed) {last : Group}
    (hlast : groups.getLast? = some last) {rows made : List Row}
    (h : groupRows t groups rows = .ok made) {row : Row} (hrow : row ∈ made) :
    last.HasOutputs row := by
  induction groups generalizing rows with
  | nil => cases hlast
  | cons g inner ih =>
    obtain ⟨hg, hinner⟩ := List.forall_mem_cons.mp hgroups
    obtain ⟨next, hnext, h⟩ := bind_eq_ok.mp h
    cases inner with
    | nil =>
      obtain rfl : g = last := Option.some.inj hlast
      rw [← Except.ok.inj h] at hrow
      exact GroupOf.hasOutputs_of_mem_level hg.1 hg.2 hnext hrow
    | cons g' rest => exact ih hinner (by rwa [List.getLast?_cons_cons] at hlast) h

end GraphQuery
