/-
# Looking up and scanning

One resource can be asked for in two ways: by the id of the query, which looks it up, or by a filter
on the field `id`, which scans all resources of the type and tests the view of each.

* A resource whose references resolve has a view (`exists_view`), in which every field stands under
  whose name no relationship is stored (`get?_view`).  So one that has neither an attribute nor a
  relationship named `id` shows its id there (`accepts_id`).
* A graph that was built has under a type and an id at most one resource, so the scan is left with
  what the lookup finds (`Graph.Built.filter_scan`).
* **`execute_lookup`: the two ways come out alike.**
-/
import GraphQuery.Proofs.Engine.Shape
import GraphQuery.Proofs.Rows.GroupRows
import GraphQuery.Proofs.Value.Paths

namespace GraphQuery

/-! ## 1. Fields and views -/

namespace Resource

/-- The row of all fields has the fields. -/
theorem get?_fields (r : Resource) (idAttribute name : String) :
    Keyed.get? name (r.fields idAttribute) = r.field? idAttribute name := by
  rw [fields, Keyed.get?_insertNew, Keyed.get?_insertNew, field?, attribute?]
  cases Keyed.get? name r.attributes with
  | some v => rfl
  | none =>
    rw [Option.none_or]
    by_cases hattribute : idAttribute = name
    · rw [if_pos hattribute, if_pos (Or.inl hattribute.symm), Option.some_or]
    · rw [if_neg hattribute, Option.none_or]
      by_cases hid : "id" = name
      · rw [if_pos hid, if_pos (Or.inr hid.symm)]
      · rw [if_neg hid, if_neg (not_or.mpr ⟨Ne.symm hattribute, Ne.symm hid⟩)]

/-- The resource stores nothing under the name. -/
def LacksName (r : Resource) (name : String) : Prop :=
  r.attribute? name = none ∧ r.links? name = none

end Resource

/-- All references that the resource stores resolve. -/
def Graph.Resolves (g : Graph) (r : Resource) : Prop :=
  ∀ l ∈ r.links, ∀ target ∈ l.2.refs, (g.resolve? target).isSome = true

instance (g : Graph) (r : Resource) : Decidable (g.Resolves r) :=
  inferInstanceAs (Decidable (∀ l ∈ r.links, ∀ target ∈ l.2.refs,
    (g.resolve? target).isSome = true))

namespace Engine

variable {e : Engine}

theorem exists_resolve {target : Ref} (h : (e.graph.resolve? target).isSome = true) (r : Resource)
    (name : String) : ∃ found, e.resolve r name target = .ok found := by
  obtain ⟨found, hfound⟩ := Option.isSome_iff_exists.mp h
  exact ⟨found, by rw [resolve, hfound]⟩

theorem exists_linkedValue {links : Links}
    (h : ∀ target ∈ links.refs, (e.graph.resolve? target).isSome = true) (r : Resource)
    (name : String) : ∃ v, e.linkedValue r name links = .ok v := by
  cases links with
  | many targets =>
    obtain ⟨found, hfound⟩ : ∃ found, targets.mapM (e.resolve r name) = .ok found :=
      exists_mapM_eq_ok fun target htarget => exists_resolve (h target htarget) r name
    exact ⟨_, by rw [linkedValue, hfound]; rfl⟩
  | one target? =>
    cases target? with
    | none => exact ⟨.null, rfl⟩
    | some target =>
      obtain ⟨found, hfound⟩ := exists_resolve (h target List.mem_cons_self) r name
      exact ⟨_, by rw [linkedValue, hfound]; rfl⟩

/-- **A resource whose references resolve has a view**: over its fields, its relationships. -/
theorem exists_view {r : Resource} (h : e.graph.Resolves r) :
    ∃ linked, e.view r = .ok (Keyed.overlay (e.fields r) linked) ∧
      Keyed.keys linked = Keyed.keys r.links := by
  have hsteps : ∀ l ∈ r.links, ∃ entry, (do
      let v ← e.linkedValue r l.1 l.2
      return (l.1, v) : Except QueryError (String × Value)) = .ok entry := by
    intro l hl
    obtain ⟨v, hv⟩ := exists_linkedValue (h l hl) r l.1
    exact ⟨(l.1, v), by rw [hv]; rfl⟩
  obtain ⟨linked, hlinked⟩ := exists_mapM_eq_ok hsteps
  refine ⟨linked, by rw [view, hlinked]; rfl, map_eq_of_mapM hlinked fun l entry hentry => ?_⟩
  obtain ⟨v, -, hentry⟩ := bind_eq_ok.mp hentry
  rw [← pure_eq_ok.mp hentry]

/-- A view has the field, unless a relationship is stored under the name. -/
theorem get?_view {r : Resource} (h : e.graph.Resolves r) {name : String}
    (hlinks : r.links? name = none) :
    ∃ view, e.view r = .ok view ∧
      Keyed.get? name view = r.field? (e.idAttribute r.typeName) name := by
  obtain ⟨linked, hview, hkeys⟩ := exists_view h
  refine ⟨_, hview, ?_⟩
  have hnone : Keyed.get? name linked.reverse = none := by
    rw [Keyed.get?_eq_none_iff, Keyed.keys, List.map_reverse, List.mem_reverse, ← Keyed.keys, hkeys,
      ← Keyed.get?_eq_none_iff]
    exact hlinks
  rw [Keyed.get?_overlay, hnone, Option.none_or, fields, Resource.get?_fields]

/-- A name without points is a path that finds the field in the view, or null. -/
theorem follow_view {r : Resource} (h : e.graph.Resolves r) {name : String} (hne : name ≠ "")
    (hpoint : '.' ∉ name.toList) (hlinks : r.links? name = none) :
    ∃ view, e.view r = .ok view ∧ (Value.map view).follow (Path.ofText name) =
      (r.field? (e.idAttribute r.typeName) name).getD .null := by
  obtain ⟨view, hview, hget⟩ := get?_view h hlinks
  refine ⟨view, hview, ?_⟩
  rw [Path.ofText_of_noPoint hne hpoint, Value.follow_entry, hget]

/-! ## 2. The filter on the id -/

/-- The filter that asks for an id. -/
def idFilter (id : String) : Filter := .field "id" (.equals (.string id))

theorem accepts_id {r : Resource} (h : e.graph.Resolves r) (hid : r.LacksName "id") (id : String) :
    e.accepts (some (idFilter id)) r = .ok (r.id == id) := by
  obtain ⟨view, hview, hfollow⟩ := follow_view h (by decide) (by decide) hid.2
  have hfield : r.field? (e.idAttribute r.typeName) "id" = some (.string r.id) := by
    rw [Resource.field?, hid.1]
    exact if_pos (Or.inr rfl)
  rw [accepts, hview, ok_bind, idFilter, Filter.holds, hfollow, hfield]
  rfl

/-- Where the filter fails for no resource, it is a plain filter. -/
theorem accepted_eq_filter {filter : Option Filter} {p : Resource → Bool} {rs : List Resource}
    (h : ∀ r ∈ rs, e.accepts filter r = .ok (p r)) : e.accepted filter rs = .ok (rs.filter p) := by
  induction rs with
  | nil => rfl
  | cons r rest ih =>
    obtain ⟨hr, hrest⟩ := List.forall_mem_cons.mp h
    rw [accepted, hr, ok_bind, ih hrest, ok_bind, List.filter_cons]
    cases p r <;> rfl

theorem accepted_none (rs : List Resource) : e.accepted none rs = .ok rs := by
  rw [accepted_eq_filter (p := fun _ => true) fun _ _ => rfl, List.filter_true]

/-- **The scan for an id is left with what the lookup finds.** -/
theorem accepted_scan (hgraph : e.graph.Built) {typeName : String}
    (hrefs : ∀ r ∈ e.graph.scan typeName, e.graph.Resolves r)
    (hnames : ∀ r ∈ e.graph.scan typeName, r.LacksName "id") (id : String) :
    e.accepted (some (idFilter id)) (e.graph.scan typeName) =
      .ok (e.graph.get? typeName id).toList := by
  rw [← hgraph.filter_scan]
  exact accepted_eq_filter fun r hr => accepts_id (hrefs r hr) (hnames r hr) id

/-! ## 3. Queries -/

/-- The query that looks up an id. -/
def lookupQuery (typeName id : String) (select : Select) : Query :=
  { typeName, id := some id, select }

/-- The query that filters by an id. -/
def filterQuery (typeName id : String) (select : Select) : Query :=
  { typeName, select, filter := some (idFilter id) }

/-- The list of one row, or of none. -/
def asRows : Value → Value
  | .null => .list []
  | v => .list [v]

theorem asRows_eq_nil_iff {v : Value} : asRows v = .list [] ↔ v = .null := by
  cases v <;> simp [asRows]

theorem asRows_eq_singleton_iff {v w : Value} : asRows v = .list [w] ↔ v = w ∧ w ≠ .null := by
  cases v <;> simp [asRows] <;> rintro rfl <;> simp

/-- The field `id` is known on every type. -/
theorem validate_filterQuery (s : Schema) (typeName id : String) (select : Select) :
    s.validate (filterQuery typeName id select) = s.validate (lookupQuery typeName id select) := by
  have hknown : ∀ t : ResourceType, t.fieldKind "id" = .id := fun t =>
    if_pos (by rw [ResourceType.isIdName, beq_self_eq_true, Bool.or_true])
  have hfilter : ∀ t : ResourceType,
      Filter.check t.name (fun name => !(t.fieldKind name).isUnknown) (some (idFilter id)) =
        .ok () := by
    intro t
    have hhead : Path.headOf "id" = "id" := by decide
    rw [Filter.check, idFilter, Filter.paths, requireKnown, List.find?_cons, hhead, hknown]
    rfl
  have hclauses : ∀ t : ResourceType, (filterQuery typeName id select).checkClauses t =
      (lookupQuery typeName id select).checkClauses t := by
    intro t
    rw [QueryOf.checkClauses, filterQuery, hfilter]
    rfl
  rw [Schema.validate, Schema.validate]
  simp only [hclauses]
  rfl

/-- Without slice and groups the accepted resources are projected in order. -/
theorem collect_ungrouped (rowOf : Resource → Except QueryError Row) {q : Query}
    {rs kept : List Resource} (hslice : q.slice = {}) (hgroups : q.groups = [])
    (h : e.accepted q.filter rs = .ok kept) :
    e.collect rowOf q rs =
      (sortSettled (e.orderValue q.typeName) q.order kept >>= fun sorted => sorted.mapM rowOf).map
        fun rows => .list (rows.map .map) := by
  rw [collect, chosen, h, hslice, ok_bind, arrange_unsliced, hgroups]
  cases sortSettled (e.orderValue q.typeName) q.order kept with
  | error err => rfl
  | ok sorted =>
    rw [ok_bind, ok_bind]
    cases sorted.mapM rowOf <;> rfl

/-- Without an order either, they are projected as they come. -/
theorem collect_plain (rowOf : Resource → Except QueryError Row) {q : Query} {rs kept : List Resource}
    (horder : q.order = []) (hslice : q.slice = {}) (hgroups : q.groups = [])
    (h : e.accepted q.filter rs = .ok kept) :
    e.collect rowOf q rs = (kept.mapM rowOf).map fun rows => .list (rows.map .map) := by
  rw [collect_ungrouped rowOf hslice hgroups h, horder, sortSettled_nil, ok_bind]

/-- **The filter by an id comes out as the lookup, as a list.** -/
theorem run_filterQuery (hgraph : e.graph.Built) {typeName : String}
    (hrefs : ∀ r ∈ e.graph.scan typeName, e.graph.Resolves r)
    (hnames : ∀ r ∈ e.graph.scan typeName, r.LacksName "id") (id : String) (select : Select) :
    e.run (filterQuery typeName id select) =
      (e.run (lookupQuery typeName id select)).map asRows := by
  rw [run, run, validate_filterQuery]
  cases e.schema.validate (lookupQuery typeName id select) with
  | error err => rfl
  | ok =>
    have hscan := accepted_scan hgraph hrefs hnames id
    rw [ok_bind, ok_bind, project, project]
    show e.collect (e.rowOf select) (filterQuery typeName id select) (e.graph.scan typeName) =
      Except.map asRows _
    rw [collect_plain _ rfl rfl rfl hscan]
    dsimp only [lookupQuery]
    cases e.graph.get? typeName id with
    | none => rfl
    | some r =>
      rw [Option.toList_some, List.mapM_cons, List.mapM_nil]
      dsimp only
      cases e.rowOf select r <;> rfl

/-! ## 4. Documents -/

/-- The document that looks up an id. -/
def lookupDocument (typeName id : String) (select : Value) : Value :=
  .map [("id", .string id), ("select", select), ("type", .string typeName)]

/-- The document that filters by an id. -/
def filterDocument (typeName id : String) (select : Value) : Value :=
  .map [("select", select), ("type", .string typeName), ("where", .map [("id", .string id)])]

/-- A query with a type and a selection, an id or a filter, and no more. -/
theorem normalize_plain (d : Dialect) {entries : Row} {typeName : String} {select : Value}
    {id : Option String} {filter : Option Filter}
    (hkeys : Section.query.check entries = .ok ())
    (htype : Keyed.get? "type" entries = some (.string typeName))
    (hselect : Keyed.get? "select" entries = some select) (hid : Dialect.readId 1 entries = .ok id)
    (hfilter : d.operators.readFilter? (Keyed.get? "where" entries) = .ok filter)
    (hothers : ∀ key ∈ ["group", "order", "slice", "limit", "offset"],
      Keyed.get? key entries = none) :
    d.normalize (.map entries) = (do
      d.checkDepth 1
      let t ← d.schema.requireType typeName
      let select ← d.readSelect t 1 select
      return { typeName, id, select, filter }) := by
  have hreadType : Dialect.readTypeName none entries = .ok typeName := by
    unfold Dialect.readTypeName
    rw [htype]
  have hgroups : d.readGroupsAmong 1 entries = .ok [] := by
    rw [Dialect.readGroupsAmong_eq, hothers "group" (by simp)]
  have hslice : Slice.ofClauses entries = .ok {} := by
    rw [Slice.ofClauses, hothers "slice" (by simp), Slice.ofCounts, hothers "limit" (by simp),
      hothers "offset" (by simp)]
    rfl
  rw [Dialect.normalize, Dialect.readQuery, hkeys, hreadType, hid, hgroups, hfilter,
    hothers "order" (by simp), hslice]
  simp only [Dialect.readSelectAmong_eq, hselect, Option.mapM_some]
  cases d.checkDepth 1 with
  | error err => rfl
  | ok =>
    simp only [ok_bind]
    cases d.schema.requireType typeName with
    | error err => rfl
    | ok t =>
      simp only [ok_bind]
      cases d.readSelect t 1 select with
      | error err => rfl
      | ok select => cases id <;> rfl

theorem normalize_lookupDocument (d : Dialect) (typeName id : String) (select : Value) :
    d.normalize (lookupDocument typeName id select) = (do
      d.checkDepth 1
      let t ← d.schema.requireType typeName
      let select ← d.readSelect t 1 select
      return lookupQuery typeName id select) :=
  normalize_plain d (Section.check_eq_ok_iff.mpr (by simp [Keyed.keys, Section.keys])) rfl rfl rfl rfl
    (by simp [Keyed.get?])

theorem normalize_filterDocument (d : Dialect) (typeName id : String) (select : Value) :
    d.normalize (filterDocument typeName id select) = (do
      d.checkDepth 1
      let t ← d.schema.requireType typeName
      let select ← d.readSelect t 1 select
      return filterQuery typeName id select) :=
  normalize_plain d (Section.check_eq_ok_iff.mpr (by simp [Keyed.keys, Section.keys])) rfl rfl rfl rfl
    (by simp [Keyed.get?])

theorem execute_filterDocument (hgraph : e.graph.Built) {typeName : String}
    (hrefs : ∀ r ∈ e.graph.scan typeName, e.graph.Resolves r)
    (hnames : ∀ r ∈ e.graph.scan typeName, r.LacksName "id") (id : String) (select : Value) :
    e.execute (filterDocument typeName id select) =
      (e.execute (lookupDocument typeName id select)).map asRows := by
  rw [execute, execute, normalize_filterDocument, normalize_lookupDocument]
  cases e.checkDepth 1 with
  | error err => rfl
  | ok =>
    cases e.schema.requireType typeName with
    | error err => rfl
    | ok t =>
      simp only [ok_bind]
      cases e.readSelect t 1 select with
      | error err => rfl
      | ok select => exact run_filterQuery hgraph hrefs hnames id select

/-- **The two ways come out alike.**  Where the references of a type resolve, and nothing else is
stored under `id`, the filter by an id gives the list of one row exactly if the lookup gives the row,
no row exactly if the lookup gives null, and an error exactly if the lookup gives the same. -/
theorem execute_lookup (e : Engine) (hgraph : e.graph.Built) (typeName : String)
    (hrefs : ∀ r ∈ e.graph.scan typeName, e.graph.Resolves r)
    (hnames : ∀ r ∈ e.graph.scan typeName, r.LacksName "id") (id : String) (select : Value) :
    (∀ v, e.execute (lookupDocument typeName id select) = .ok v ∧ v ≠ .null ↔
        e.execute (filterDocument typeName id select) = .ok (.list [v])) ∧
      (e.execute (lookupDocument typeName id select) = .ok .null ↔
        e.execute (filterDocument typeName id select) = .ok (.list [])) ∧
      ∀ err, e.execute (lookupDocument typeName id select) = .error err ↔
        e.execute (filterDocument typeName id select) = .error err := by
  rw [execute_filterDocument hgraph hrefs hnames id select]
  cases e.execute (lookupDocument typeName id select) with
  | error err => simp [Except.map]
  | ok w =>
    simp only [Except.map, Except.ok.injEq, asRows_eq_singleton_iff, asRows_eq_nil_iff, reduceCtorEq,
      implies_true, and_self]

/-- Everything about a person, with the friends. -/
def personSelect : Value := .map [
  ("age", .string "age"), ("friends", .map [("select", .string "name")]), ("name", .string "name")]

/-- The row of Ann. -/
def personRow : Value := .map [
  ("age", .null), ("friends", .list [.map [("name", .string "Bob")]]), ("name", .string "Ann")]

theorem execute_lookup_office :
    office.graph.Built ∧
      (∀ r ∈ office.graph.scan "Person", office.graph.Resolves r ∧ r.LacksName "id") ∧
      office.execute (lookupDocument "Person" "ann" personSelect) = .ok personRow ∧
      office.execute (filterDocument "Person" "ann" personSelect) = .ok (.list [personRow]) ∧
      office.execute (filterDocument "Person" "eve" personSelect) = .ok (.list []) := by
  have hinsert : (office.graph.scan "Person").foldlM Graph.insert .empty = .ok office.graph := by
    decide +kernel
  have hgraph : office.graph.Built := Graph.Built.empty.insertAll hinsert
  have hrefs : ∀ r ∈ office.graph.scan "Person", office.graph.Resolves r := by
    unfold Graph.Resolves
    decide +kernel
  have hnames : ∀ r ∈ office.graph.scan "Person", r.LacksName "id" := by
    unfold Resource.LacksName
    decide +kernel
  have hann : office.execute (lookupDocument "Person" "ann" personSelect) = .ok personRow := by
    decide +kernel
  have heve : office.execute (lookupDocument "Person" "eve" personSelect) = .ok .null := by
    decide +kernel
  refine ⟨hgraph, fun r hr => ⟨hrefs r hr, hnames r hr⟩, hann, ?_, ?_⟩
  · exact ((execute_lookup office hgraph "Person" hrefs hnames "ann" personSelect).1 _).mp
      ⟨hann, by simp [personRow]⟩
  · exact (execute_lookup office hgraph "Person" hrefs hnames "eve" personSelect).2.1.mp heve

end Engine

end GraphQuery
