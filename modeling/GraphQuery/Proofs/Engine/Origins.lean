/-
# Where errors of projection come from

Projection fails in two ways only: a reference of a resource of the graph leads nowhere, or a clause
of one of the queries that stand within the projected one fails.  Beside that, the program may stop
where it sorts.  So a property that all these errors and the stop have is one that every error of
projection has (**`project_failsOnly_of`**).

`QueryOf.FailsWithin` collects the second kind for one query: its slices, and its expressions and
filters on whatever they may be evaluated on.  The induction down the sub-queries is done here once,
for any property of errors.  What a query can fail with is then a question about single clauses.
-/
import GraphQuery.Engine.Projection
import GraphQuery.Proofs.Expression.Checks
import GraphQuery.Proofs.Graph.Store
import GraphQuery.Proofs.Ordering.Anchors

namespace GraphQuery

/-! ## 1. The queries within a query -/

mutual
/-- The queries within a selection, each before those within it. -/
def Selection.queries : Selection → List Query
  | .subquery ⟨typeName, id, select, filter, order, slice, groups⟩ =>
    ⟨typeName, id, select, filter, order, slice, groups⟩ :: Select.queries select
  | .field _ => []
  | .expression _ => []
termination_by structural x => x
/-- Those within the entries of a selection. -/
def Select.queries : List (String × Selection) → List Query
  | [] => []
  | (_, s) :: rest => Selection.queries s ++ Select.queries rest
termination_by structural x => x
end

/-- The query and all queries within it. -/
def QueryOf.queries (q : Query) : List Query := q :: Select.queries q.select

theorem Selection.queries_subquery (q : Query) : (Selection.subquery q).queries = q.queries := by
  rw [Selection.queries]
  rfl

theorem Select.mem_queries {select : Select} {q : Query} :
    q ∈ Select.queries select ↔ ∃ x ∈ select, q ∈ x.2.queries := by
  induction select with
  | nil => simp [Select.queries]
  | cons x rest ih =>
    obtain ⟨key, s⟩ := x
    rw [Select.queries, List.mem_append, ih, List.exists_mem_cons_iff]

/-! ## 2. The errors of clauses -/

variable {P : QueryError → Prop} {t : OperatorTable}

/-- The errors of a group level have the property, whatever rows it is given. -/
structure GroupOf.FailsWithin (P : QueryError → Prop) (t : OperatorTable) (g : Group) : Prop where
  slice : FailsOnly P (g.slice.check g.order)
  rows : ∀ parts, FailsOnly P (QueryError.ofExpr (g.rowsOf t parts))

/-- The errors of the clauses of a query have the property, those of the queries in its selection
apart. -/
structure QueryOf.FailsWithin (P : QueryError → Prop) (t : OperatorTable) (q : Query) : Prop where
  slice : FailsOnly P (q.slice.check q.order)
  expression : ∀ key x, (key, .expression x) ∈ q.select → ∀ view,
    FailsOnly P (QueryError.ofExpr (t.evaluate x (.map view)))
  filter : ∀ f, q.filter = some f → ∀ view, FailsOnly P (QueryError.ofExpr (f.holds t (.map view)))
  groups : ∀ g ∈ q.groups, g.FailsWithin P t

theorem GroupOf.FailsWithin.mono {Q : QueryError → Prop} {g : Group} (hg : g.FailsWithin P t)
    (h : ∀ err, P err → Q err) : g.FailsWithin Q t where
  slice := hg.slice.mono h
  rows parts := (hg.rows parts).mono h

theorem QueryOf.FailsWithin.mono {Q : QueryError → Prop} {q : Query} (hq : q.FailsWithin P t)
    (h : ∀ err, P err → Q err) : q.FailsWithin Q t where
  slice := hq.slice.mono h
  expression key x hx view := (hq.expression key x hx view).mono h
  filter f hf view := (hq.filter f hf view).mono h
  groups g hg := (hq.groups g hg).mono h

theorem QueryError.ofExpr_failsOnly {α : Type} {x : Except ExprError α}
    (h : FailsOnly (fun err => P (.expression err)) x) : FailsOnly P (ofExpr x) := by
  intro err herr
  obtain ⟨err', herr', rfl⟩ := ofExpr_eq_error.mp herr
  exact h err' herr'

/-- If all errors of expressions have the property, only slices have to be looked at. -/
theorem QueryOf.FailsWithin.of_slices (hexpression : ∀ x, P (.expression x)) {q : Query}
    (hslice : FailsOnly P (q.slice.check q.order))
    (hgroups : ∀ g ∈ q.groups, FailsOnly P (g.slice.check g.order)) : q.FailsWithin P t where
  slice := hslice
  expression _ _ _ _ := QueryError.ofExpr_failsOnly fun err _ => hexpression err
  filter _ _ _ := QueryError.ofExpr_failsOnly fun err _ => hexpression err
  groups g hg := ⟨hgroups g hg, fun _ => QueryError.ofExpr_failsOnly fun err _ => hexpression err⟩

theorem arrange_failsOnly_of {α : Type} {key : α → String → Value} {order : List OrderKey}
    {slice : Slice} (hstop : P (.expression .stopped)) (h : FailsOnly P (slice.check order))
    (items : List α) : FailsOnly P (arrange key order slice items) := by
  refine h.bind fun _ _ => FailsOnly.bind ?_ fun _ _ => .pure
  rw [sortSettled]
  split
  · exact .ok
  · exact .error hstop

theorem groupRows_failsOnly_of (hstop : P (.expression .stopped)) {groups : List Group}
    (h : ∀ g ∈ groups, g.FailsWithin P t) (rows : List Row) :
    FailsOnly P (groupRows t groups rows) := by
  induction groups generalizing rows with
  | nil => exact .ok
  | cons g inner ih =>
    obtain ⟨hg, hinner⟩ := List.forall_mem_cons.mp h
    have hlevel : FailsOnly P (g.level t rows) :=
      (hg.rows _).bind fun made _ => arrange_failsOnly_of hstop hg.slice made
    exact hlevel.bind fun made _ => ih hinner made

/-! ## 3. Resources -/

/-- The resource is in the graph. -/
def Graph.Has (g : Graph) (r : Resource) : Prop := ∃ typeName id, g.get? typeName id = some r

theorem Graph.has_of_mem_scan {g : Graph} {typeName : String} {r : Resource}
    (h : r ∈ g.scan typeName) : g.Has r :=
  ⟨typeName, exists_get?_of_mem_scan h⟩

/-- A resource of the graph stands among those of some type. -/
theorem Graph.Has.exists_mem {g : Graph} {r : Resource} (h : g.Has r) :
    ∃ byId ∈ g.resources, ∃ entry ∈ byId.2, entry.2 = r := by
  obtain ⟨typeName, id, hr⟩ := h
  rw [get?, ofType] at hr
  cases hbyId : Keyed.get? typeName g.resources with
  | none => rw [hbyId] at hr; cases hr
  | some byId =>
    rw [hbyId] at hr
    exact ⟨_, Keyed.mem_of_get?_eq_some hbyId, _, Keyed.mem_of_get?_eq_some hr, rfl⟩

namespace Engine

variable {e : Engine}

theorem resolve_eq_ok_iff {source target : Resource} {name : String} {ref : Ref} :
    e.resolve source name ref = .ok target ↔ e.graph.resolve? ref = some target := by
  unfold resolve
  cases e.graph.resolve? ref <;> simp

theorem resolve_eq_error_iff {source : Resource} {name : String} {ref : Ref} {err : QueryError} :
    e.resolve source name ref = .error err ↔
      e.graph.resolve? ref = none ∧ err = .danglingReference source.ref name ref := by
  unfold resolve
  cases e.graph.resolve? ref <;> simp [eq_comm]

theorem has_of_resolve {source target : Resource} {name : String} {ref : Ref}
    (h : e.resolve source name ref = .ok target) : e.graph.Has target :=
  ⟨ref.typeName, ref.id, resolve_eq_ok_iff.mp h⟩

theorem has_of_mem_targets {source : Resource} {name : String} {refs : List Ref}
    {targets : List Resource} (h : refs.mapM (e.resolve source name) = .ok targets) {r : Resource}
    (hr : r ∈ targets) : e.graph.Has r := by
  obtain ⟨ref, -, hresolve⟩ := exists_of_mem_mapM h hr
  exact has_of_resolve hresolve

/-- What is stored under a name is one of the relationships that the resource stores. -/
theorem exists_links_of_mem_refsOf {r : Resource} {name : String} {ref : Ref}
    (h : ref ∈ refsOf r name) : ∃ links, (name, links) ∈ r.links ∧ ref ∈ links.refs := by
  unfold refsOf Resource.links? at h
  cases hlinks : Keyed.get? name r.links with
  | none => rw [hlinks] at h; exact absurd h List.not_mem_nil
  | some links =>
    rw [hlinks] at h
    exact ⟨links, Keyed.mem_of_get?_eq_some hlinks, h⟩

/-- Following a reference of a resource of the graph fails with an error that has the property. -/
def RefsFailWithin (P : QueryError → Prop) (e : Engine) : Prop :=
  ∀ r, e.graph.Has r → ∀ l ∈ r.links, ∀ ref ∈ l.2.refs, FailsOnly P (e.resolve r l.1 ref)

theorem RefsFailWithin.of_dangling
    (h : ∀ source name target, P (.danglingReference source name target)) :
    e.RefsFailWithin P := by
  intro r _ l _ ref _ err herr
  rw [(resolve_eq_error_iff.mp herr).2]
  exact h _ _ _

namespace RefsFailWithin

variable (hrefs : e.RefsFailWithin P) {r : Resource} (hr : e.graph.Has r)

include hrefs hr

theorem refsOf {name : String} {ref : Ref} (h : ref ∈ refsOf r name) :
    FailsOnly P (e.resolve r name ref) := by
  obtain ⟨links, hlinks, href⟩ := exists_links_of_mem_refsOf h
  exact hrefs r hr _ hlinks ref href

theorem view : FailsOnly P (e.view r) := by
  have hlinked : ∀ l ∈ r.links, FailsOnly P (e.linkedValue r l.1 l.2) := by
    rintro ⟨name, links⟩ hl
    have hresolve := hrefs r hr (name, links) hl
    cases links with
    | many refs => exact (FailsOnly.mapM hresolve).bind fun _ _ => .pure
    | one ref? =>
      cases ref? with
      | none => exact .ok
      | some ref => exact (hresolve ref List.mem_cons_self).bind fun _ _ => .pure
  exact (FailsOnly.mapM fun l hl => (hlinked l hl).bind fun _ _ => .pure).bind fun _ _ => .pure

theorem accepts {q : Query} (hq : q.FailsWithin P e.operators) :
    FailsOnly P (e.accepts q.filter r) := by
  cases hfilter : q.filter with
  | none => exact .ok
  | some f => exact (view hrefs hr).bind fun view _ => hq.filter f hfilter view

end RefsFailWithin

/-! ## 4. Collections -/

theorem mem_of_mem_accepted {filter : Option Filter} {rs kept : List Resource} {r : Resource}
    (h : e.accepted filter rs = .ok kept) (hr : r ∈ kept) : r ∈ rs := by
  induction rs generalizing kept with
  | nil => rw [← Except.ok.inj h] at hr; cases hr
  | cons r' rest ih =>
    obtain ⟨b, -, h⟩ := bind_eq_ok.mp h
    obtain ⟨others, hothers, h⟩ := bind_eq_ok.mp h
    rw [← pure_eq_ok.mp h] at hr
    cases b with
    | false => exact List.mem_cons_of_mem _ (ih hothers hr)
    | true =>
      rcases List.mem_cons.mp hr with rfl | hr
      · exact List.mem_cons_self
      · exact List.mem_cons_of_mem _ (ih hothers hr)

theorem mem_of_mem_chosen {q : Query} {rs kept : List Resource} {r : Resource}
    (h : e.chosen q rs = .ok kept) (hr : r ∈ kept) : r ∈ rs := by
  obtain ⟨all, hall, h⟩ := bind_eq_ok.mp h
  exact mem_of_mem_accepted hall (mem_of_mem_arrange h hr)

section

variable (hrefs : e.RefsFailWithin P)

include hrefs

theorem accepted_failsOnly_of {q : Query} (hq : q.FailsWithin P e.operators) {rs : List Resource}
    (hrs : ∀ r ∈ rs, e.graph.Has r) : FailsOnly P (e.accepted q.filter rs) := by
  induction rs with
  | nil => exact .ok
  | cons r rest ih =>
    obtain ⟨hr, hrest⟩ := List.forall_mem_cons.mp hrs
    exact (hrefs.accepts hr hq).bind fun _ _ => (ih hrest).bind fun _ _ => .pure

/-- A collection fails within the bound if the rows of its resources do. -/
theorem collect_failsOnly_of (hstop : P (.expression .stopped))
    {rowOf : Resource → Except QueryError Row} {q : Query} (hq : q.FailsWithin P e.operators)
    {rs : List Resource} (hrs : ∀ r ∈ rs, e.graph.Has r)
    (hrow : ∀ r, e.graph.Has r → FailsOnly P (rowOf r)) : FailsOnly P (e.collect rowOf q rs) := by
  have hchosen : FailsOnly P (e.chosen q rs) :=
    (accepted_failsOnly_of hrefs hq hrs).bind fun kept _ => arrange_failsOnly_of hstop hq.slice kept
  refine hchosen.bind fun kept hkept => ?_
  have hrows : FailsOnly P (kept.mapM rowOf) :=
    .mapM fun r hr => hrow r (hrs r (mem_of_mem_chosen hkept hr))
  refine hrows.bind fun rows _ => ?_
  split
  · exact .pure
  · exact (groupRows_failsOnly_of hstop hq.groups _).bind fun _ _ => .pure

end

/-! ## 5. Rows -/

mutual
/-- **A row fails within the bound** if the expressions of its selection and all queries within it
do. -/
theorem rowOf_failsOnly_of (hstop : P (.expression .stopped)) (hrefs : e.RefsFailWithin P) :
    (select : List (String × Selection)) →
    (∀ key x, (key, .expression x) ∈ select → ∀ view,
      FailsOnly P (QueryError.ofExpr (e.operators.evaluate x (.map view)))) →
    (∀ q ∈ Select.queries select, q.FailsWithin P e.operators) →
    ∀ r, e.graph.Has r → FailsOnly P (e.rowOf select r)
  | [], _, _, r, _ => by
    rw [rowOf]
    exact .ok
  | (key, s) :: rest, hexpressions, hqueries, r, hr => by
    rw [Select.queries, List.forall_mem_append] at hqueries
    have hentry : FailsOnly P (e.entryOf key s r) :=
      entryOf_failsOnly_of hstop hrefs key s
        (fun x hx => hexpressions key x (hx ▸ List.mem_cons_self)) hqueries.1 r hr
    have hrest : FailsOnly P (e.rowOf rest r) :=
      rowOf_failsOnly_of hstop hrefs rest
        (fun key x hx => hexpressions key x (List.mem_cons_of_mem _ hx)) hqueries.2 r hr
    rw [rowOf]
    refine hentry.bind fun v? _ => hrest.bind fun row _ => ?_
    split <;> exact .pure
termination_by structural select => select
theorem entryOf_failsOnly_of (hstop : P (.expression .stopped)) (hrefs : e.RefsFailWithin P)
    (key : String) : (s : Selection) →
    (∀ x, s = .expression x → ∀ view,
      FailsOnly P (QueryError.ofExpr (e.operators.evaluate x (.map view)))) →
    (∀ q ∈ s.queries, q.FailsWithin P e.operators) →
    ∀ r, e.graph.Has r → FailsOnly P (e.entryOf key s r)
  | .field source, _, _, r, _ => by
    rw [entryOf]
    exact .ok
  | .expression x, hexpression, _, r, hr => by
    rw [entryOf]
    exact (hrefs.view hr).bind fun view _ => (hexpression x rfl view).bind fun _ _ => .pure
  | .subquery ⟨typeName, id, select, filter, order, slice, groups⟩, _, hqueries, r, hr => by
    rw [Selection.queries, List.forall_mem_cons] at hqueries
    obtain ⟨hq, hqueries⟩ := hqueries
    have hrow : ∀ target, e.graph.Has target → FailsOnly P (e.rowOf select target) :=
      rowOf_failsOnly_of hstop hrefs select hq.expression hqueries
    rw [entryOf]
    split
    · refine FailsOnly.bind (.mapM fun ref href => hrefs.refsOf hr href) fun targets htargets => ?_
      have hhas : ∀ target ∈ targets, e.graph.Has target :=
        fun target htarget => has_of_mem_targets htargets htarget
      exact (collect_failsOnly_of hrefs hstop hq hhas hrow).bind fun _ _ => .pure
    · split
      · exact .ok
      · next ref href =>
        refine (hrefs.refsOf hr (List.mem_of_mem_head? href)).bind fun target htarget => ?_
        refine (hrefs.accepts (has_of_resolve htarget) hq).bind fun kept _ => ?_
        split
        · exact (hrow target (has_of_resolve htarget)).bind fun _ _ => .pure
        · exact .pure
termination_by structural s => s
end

/-! ## 6. Queries -/

/-- **Every error of projection has the property** if a stop has it, and those of the references of the
graph and of the clauses of all queries have. -/
theorem project_failsOnly_of (hstop : P (.expression .stopped)) (hrefs : e.RefsFailWithin P) {q : Query}
    (hq : ∀ q' ∈ q.queries, q'.FailsWithin P e.operators) :
    FailsOnly P (e.project q) := by
  rw [QueryOf.queries, List.forall_mem_cons] at hq
  obtain ⟨hroot, hwithin⟩ := hq
  have hrow : ∀ r, e.graph.Has r → FailsOnly P (e.rowOf q.select r) :=
    rowOf_failsOnly_of hstop hrefs q.select hroot.expression hwithin
  unfold project
  split
  · exact collect_failsOnly_of hrefs hstop hroot (fun r hr => Graph.has_of_mem_scan hr) hrow
  · split
    · exact .ok
    · next r hr => exact (hrow r ⟨_, _, hr⟩).bind fun _ _ => .pure

end Engine

end GraphQuery
