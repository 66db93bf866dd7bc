/-
# Queries of attributes

References are followed only where a query asks for them.  A query whose rows are made of fields and
whose root has no filter never looks at what its resources point at: it comes out on a graph as on the
same graph without any references (**`project_withoutLinks`**), whatever its order, slice and groups.
So the references may differ from one graph to another, and may dangle.

An expression in the selection would already build the view of a resource, and so would a filter; the
expressions of group levels do not, since they are evaluated on rows.
-/
import GraphQuery.Proofs.Engine.Members
import GraphQuery.Proofs.Ordering.Windows

namespace GraphQuery

/-! ## 1. Graphs without references -/

/-- The resource without its references. -/
def Resource.withoutLinks (r : Resource) : Resource := { r with links := [] }

namespace Graph

/-- The graph without any references. -/
def withoutLinks (g : Graph) : Graph where
  resources := Keyed.mapValues (Keyed.mapValues Resource.withoutLinks) g.resources
  index := g.index

theorem get?_withoutLinks (g : Graph) (typeName id : String) :
    g.withoutLinks.get? typeName id = (g.get? typeName id).map Resource.withoutLinks := by
  rw [get?, get?, ofType, ofType, withoutLinks, Keyed.get?_mapValues]
  cases Keyed.get? typeName g.resources with
  | none => rfl
  | some byId => exact Keyed.get?_mapValues _ _ _

theorem scan_withoutLinks (g : Graph) (typeName : String) :
    g.withoutLinks.scan typeName = (g.scan typeName).map Resource.withoutLinks := by
  rw [scan, scan, List.map_filterMap]
  exact List.filterMap_congr fun id _ => g.get?_withoutLinks typeName id

/-- It misses nothing. -/
theorem resolves_of_has_withoutLinks (g : Graph) (r : Resource) (h : g.withoutLinks.Has r) :
    g.withoutLinks.Resolves r := by
  obtain ⟨typeName, id, hr⟩ := h
  rw [get?_withoutLinks] at hr
  obtain ⟨r', -, rfl⟩ := Option.map_eq_some_iff.mp hr
  exact fun l hl => absurd hl List.not_mem_nil

/-- Two graphs have the same resources in the same order, but for their references. -/
structure SameAttributes (g g' : Graph) : Prop where
  scan : ∀ typeName,
    (g.scan typeName).map Resource.withoutLinks = (g'.scan typeName).map Resource.withoutLinks
  get? : ∀ typeName id,
    (g.get? typeName id).map Resource.withoutLinks = (g'.get? typeName id).map Resource.withoutLinks

theorem sameAttributes_withoutLinks (g : Graph) : g.SameAttributes g.withoutLinks where
  scan typeName := by
    rw [scan_withoutLinks, List.map_map]
    rfl
  get? typeName id := by
    rw [get?_withoutLinks, Option.map_map]
    rfl

end Graph

/-! ## 2. Rows of fields -/

/-- The rows of the query are made of fields. -/
def QueryOf.SelectsFields (q : Query) : Prop := ∀ x ∈ q.select, ∃ source, x.2 = .field source

namespace Engine

variable {e : Engine} {q : Query}

/-- A row of fields depends on the attributes alone. -/
theorem rowOf_withoutLinks {select : Select} (h : ∀ x ∈ select, ∃ source, x.2 = .field source)
    (g : Graph) (r : Resource) : (e.withGraph g).rowOf select r.withoutLinks = e.rowOf select r := by
  induction select with
  | nil => rw [rowOf, rowOf]
  | cons x rest ih =>
    obtain ⟨key, s⟩ := x
    obtain ⟨⟨source, rfl⟩, hrest⟩ := List.forall_mem_cons.mp h
    rw [rowOf, rowOf, ih hrest, entryOf, entryOf]
    rfl

/-- **So does a collection of such rows.** -/
theorem collect_withoutLinks (hfields : q.SelectsFields) (hfilter : q.filter = none) (g : Graph)
    (rs : List Resource) :
    (e.withGraph g).collect ((e.withGraph g).rowOf q.select) q (rs.map Resource.withoutLinks) =
      e.collect (e.rowOf q.select) q rs := by
  have hchosen : (e.withGraph g).chosen q (rs.map Resource.withoutLinks) =
      (e.chosen q rs).map (List.map Resource.withoutLinks) := by
    rw [chosen, chosen, hfilter, accepted_none, accepted_none, ok_bind, ok_bind, arrange_map]
    rfl
  have hrows : ∀ kept : List Resource,
      (kept.map Resource.withoutLinks).mapM ((e.withGraph g).rowOf q.select) =
        kept.mapM (e.rowOf q.select) := by
    intro kept
    rw [List.mapM_map]
    exact congrArg kept.mapM (funext fun r => rowOf_withoutLinks hfields g r)
  -- what is grouped are the rows, over the fields of their resources
  have hinputs : ∀ (kept : List Resource) (rows : List Row),
      ((kept.map Resource.withoutLinks).zip rows).map
          (fun p => Keyed.overlay ((e.withGraph g).fields p.1) p.2) =
        (kept.zip rows).map fun p => Keyed.overlay (e.fields p.1) p.2 := by
    intro kept rows
    rw [List.zip_map_left, List.map_map]
    rfl
  rw [collect, collect, hchosen, map_bind]
  simp only [hrows, hinputs]
  rfl

/-! ## 3. Queries -/

/-- **Graphs that differ in their references only give the same result.** -/
theorem project_sameAttributes {g : Graph} (h : e.graph.SameAttributes g)
    (hfields : q.SelectsFields) (hfilter : q.filter = none) :
    (e.withGraph g).project q = e.project q := by
  have hcollect : ∀ rs rs' : List Resource,
      rs.map Resource.withoutLinks = rs'.map Resource.withoutLinks →
        (e.withGraph g).collect ((e.withGraph g).rowOf q.select) q rs' =
          e.collect (e.rowOf q.select) q rs := by
    intro rs rs' hsame
    rw [← collect_withoutLinks (e := e) hfields hfilter g rs, hsame]
    exact (collect_withoutLinks (e := e.withGraph g) hfields hfilter g rs').symm
  have hrow : ∀ r r' : Resource, r.withoutLinks = r'.withoutLinks →
      (e.withGraph g).rowOf q.select r' = e.rowOf q.select r := by
    intro r r' hsame
    rw [← rowOf_withoutLinks (e := e) hfields g r, hsame]
    exact (rowOf_withoutLinks (e := e.withGraph g) hfields g r').symm
  unfold project
  cases q.id with
  | none => exact hcollect _ _ (h.scan q.typeName)
  | some id =>
    have hget := h.get? q.typeName id
    dsimp only [withGraph]
    cases hr : e.graph.get? q.typeName id with
    | none =>
      rw [hr, Option.map_none, eq_comm, Option.map_eq_none_iff] at hget
      rw [hget]
    | some r =>
      rw [hr, Option.map_some, eq_comm, Option.map_eq_some_iff] at hget
      obtain ⟨r', hr', hsame⟩ := hget
      rw [hr']
      dsimp only
      rw [← hrow r r' hsame.symm]
      rfl

/-- **The result is that without any references**, so none of them is ever missing. -/
theorem project_withoutLinks (hfields : q.SelectsFields) (hfilter : q.filter = none) :
    (e.withGraph e.graph.withoutLinks).project q = e.project q :=
  project_sameAttributes e.graph.sameAttributes_withoutLinks hfields hfilter

theorem not_dangling_of_fields (hfields : q.SelectsFields) (hfilter : q.filter = none)
    (source : Ref) (name : String) (target : Ref) :
    e.project q ≠ .error (.danglingReference source name target) := by
  rw [← project_withoutLinks hfields hfilter]
  intro herror
  have hmisses := project_namesMissing q _ herror source name target rfl
  exact not_misses e.graph.resolves_of_has_withoutLinks source name target hmisses

/-- **Relationships are read only when asked for.**  If the rows of a query are made of fields and its
root has no filter, then on graphs that differ in their references only, the query and its documents
come out the same, with a result or an error, and never with a dangling reference. -/
theorem run_sameAttributes (e : Engine) (g : Graph) (h : e.graph.SameAttributes g) (q : Query)
    (hfields : q.SelectsFields) (hfilter : q.filter = none) :
    (e.withGraph g).run q = e.run q ∧
      (∀ source name target, e.run q ≠ .error (.danglingReference source name target)) ∧
      ∀ document, e.normalize document = .ok q →
        (e.withGraph g).execute document = e.execute document ∧
          ∀ source name target,
            e.execute document ≠ .error (.danglingReference source name target) := by
  have hrun : (e.withGraph g).run q = e.run q := by
    rw [run, run, project_sameAttributes h hfields hfilter]
    rfl
  have hnever : ∀ source name target,
      e.run q ≠ .error (.danglingReference source name target) := by
    intro source name target herror
    rcases bind_eq_error.mp herror with hvalidate | ⟨_, -, hproject⟩
    · exact absurd (Schema.validate_isCaller q _ hvalidate) (by simp [QueryError.isCaller])
    · exact not_dangling_of_fields hfields hfilter source name target hproject
  refine ⟨hrun, hnever, fun document hq => ?_⟩
  have hexecute : e.execute document = e.run q := by rw [execute, hq, ok_bind]
  have hexecute' : (e.withGraph g).execute document = (e.withGraph g).run q := by
    rw [execute, show (e.withGraph g).normalize document = .ok q from hq, ok_bind]
  rw [hexecute, hexecute', hrun]
  exact ⟨rfl, hnever⟩

/-- The number of people of each age. -/
def agesDocument : Value := .map [
  ("group", .map [
    ("aggregates", .map [("people", .map [("$count", .null)])]),
    ("by", .string "age"),
    ("where", .map [("people", .map [("$gt", .int 0)])])]),
  ("order", .string "name"),
  ("select", .list [.string "age", .string "name"]),
  ("type", .string "Person")]

/-- The query for it. -/
def agesQuery : Query where
  typeName := "Person"
  select := [("age", .field "age"), ("name", .field "name")]
  order := [⟨"name", .asc⟩]
  groups := [{
    keys := ["age"]
    select := [("age", .field "age")]
    aggregates := [("people", .map [("$count", .null)])]
    filter := some (.field "people" (.expression (.map [("$gt", .int 0)]))) }]

theorem run_sameAttributes_people :
    people.graph.SameAttributes people.graph.withoutLinks ∧ people.graph.withoutLinks ≠ people.graph ∧
      agesQuery.SelectsFields ∧ agesQuery.filter = none ∧
      people.normalize agesDocument = .ok agesQuery ∧
      people.execute agesDocument =
        .ok (.list [.map [("age", .int 30), ("people", .int 1)]]) ∧
      (people.withGraph people.graph.withoutLinks).execute agesDocument =
        people.execute agesDocument := by
  have hfields : agesQuery.SelectsFields := by
    intro x hx
    simp only [agesQuery, List.mem_cons, List.not_mem_nil, or_false] at hx
    rcases hx with rfl | rfl
    · exact ⟨"age", rfl⟩
    · exact ⟨"name", rfl⟩
  have hq : people.normalize agesDocument = .ok agesQuery := by decide +kernel
  have hsame := people.graph.sameAttributes_withoutLinks
  obtain ⟨-, -, hdocuments⟩ := run_sameAttributes people _ hsame agesQuery hfields rfl
  exact ⟨hsame, by decide +kernel, hfields, rfl, hq, by decide +kernel, (hdocuments _ hq).1⟩

end Engine

end GraphQuery
