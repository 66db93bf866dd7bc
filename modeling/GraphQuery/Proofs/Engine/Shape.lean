/-
# The shape of results

What a query asks for can be told from the query and the schema: a row has the selected keys, and
under the name of a relationship stand many rows or at most one.  `ResultFits` says it rule by rule,
down the sub-queries; its rules look at the schema only for how many rows there may be.

A graph stores a form of its own under each relationship, many references or at most one, and need
not agree with the schema.  What it has to keep is that references go where the schema says
(`RefsFit`): then every resource that a sub-query meets has the type for which it was checked.

* `entryFits_of_entryOf` is the induction down a normal selection that was validated.
* **`execute_resultFits`: every result fits its query.**
-/
import GraphQuery.Proofs.Engine.Safety
import GraphQuery.Proofs.Graph.Store
import GraphQuery.Proofs.Rows.GroupKeys

namespace GraphQuery

/-! ## 1. Fields and checked levels -/

theorem Resource.isSome_field? {r : Resource} {idAttribute source : String} :
    (r.field? idAttribute source).isSome = true ↔
      (∃ v, r.attribute? source = some v) ∨ source = idAttribute ∨ source = "id" := by
  unfold Resource.field?
  cases r.attribute? source with
  | some v => simp
  | none => simp

theorem QueryOf.closed_of_checkClauses {t : ResourceType} {q : Query}
    (h : q.checkClauses t = .ok ()) : ∀ g ∈ q.groups, g.Closed := by
  simp only [QueryOf.checkClauses, check_bind_eq_ok] at h
  intro g hg
  obtain ⟨_, _, hcheck⟩ := exists_check_of_checkGroups h.2.2.2 g hg
  exact (GroupOf.check_eq_ok_iff.mp hcheck).2.1

namespace Engine

variable {e : Engine}

/-! ## 2. Results that fit -/

section

variable (e : Engine)

/-- The references that are stored under a declared relationship have the type it points at. -/
def RefsFit : Prop :=
  ∀ typeName id name r rel, e.graph.get? typeName id = some r →
    e.schema.relationship? r.typeName name = some rel →
      ∀ ref ∈ refsOf r name, ref.typeName = rel.target

/-- A reference that the resource stores under the name leads to the target. -/
def PointsAt (r : Resource) (name : String) (target : Resource) : Prop :=
  ∃ ref ∈ refsOf r name, e.graph.resolve? ref = some target

/-- The row of the resource has an entry for the selection: for a field, if it is the id, or the type
declares it, or the resource carries it. -/
def Shows (r : Resource) : Selection → Prop
  | .field source =>
    source = e.idAttribute r.typeName ∨ source = "id" ∨
      (∃ t a, e.schema.type? r.typeName = some t ∧ t.attribute? source = some a) ∨
        ∃ v, r.attribute? source = some v
  | .expression _ => True
  | .subquery _ => True

mutual
/-- The row is one of the resource, as the query asks for it. -/
inductive RowFits : Query → Resource → Row → Prop
  | intro {q : Query} {r : Resource} {row : Row} (htype : r.typeName = q.typeName)
      (hsorted : Keyed.Sorted row)
      (hkeys : ∀ key, key ∈ Keyed.keys row ↔ ∃ s, (key, s) ∈ q.select ∧ e.Shows r s)
      (hentries : ∀ key s v, (key, s) ∈ q.select → (key, v) ∈ row → EntryFits r key s v) :
      RowFits q r row
/-- The row is one of a resource that stands under the relationship, as the query asks for it. -/
inductive RelatedFits : Resource → String → Query → Row → Prop
  | intro {r target : Resource} {name : String} {q : Query} {row : Row}
      (htarget : e.PointsAt r name target) (hrow : RowFits q target row) :
      RelatedFits r name q row
/-- The value stands in the row of the resource, under the key, as the selection asks for it.  How
many rows a sub-query has depends on the schema alone. -/
inductive EntryFits : Resource → String → Selection → Value → Prop
  | field {r : Resource} {key source : String} {v : Value} : EntryFits r key (.field source) v
  | expression {r : Resource} {key : String} {x v : Value} : EntryFits r key (.expression x) v
  | rows {r : Resource} {key : String} {q : Query} {rel : Relationship} {rows : List Row}
      (hrel : e.schema.relationship? r.typeName key = some rel) (hmany : rel.isMany = true)
      (hgroups : q.groups = []) (hrows : ∀ row ∈ rows, RelatedFits r key q row) :
      EntryFits r key (.subquery q) (.list (rows.map .map))
  | groupRows {r : Resource} {key : String} {q : Query} {rel : Relationship} {rows : List Row}
      {last : Group} (hrel : e.schema.relationship? r.typeName key = some rel)
      (hmany : rel.isMany = true) (hlast : q.groups.getLast? = some last)
      (hrows : ∀ row ∈ rows, last.HasOutputs row) :
      EntryFits r key (.subquery q) (.list (rows.map .map))
  | row {r : Resource} {key : String} {q : Query} {rel : Relationship} {row : Row}
      (hrel : e.schema.relationship? r.typeName key = some rel) (hone : rel.isMany = false)
      (hrow : RelatedFits r key q row) : EntryFits r key (.subquery q) (.map row)
  | null {r : Resource} {key : String} {q : Query} {rel : Relationship}
      (hrel : e.schema.relationship? r.typeName key = some rel) (hone : rel.isMany = false) :
      EntryFits r key (.subquery q) .null
end

/-- The value is a result of the query: with an id a row or null, without one a list. -/
inductive ResultFits (q : Query) : Value → Prop
  | null {id : String} (hid : q.id = some id) (hnone : e.graph.get? q.typeName id = none) :
      ResultFits q .null
  | row {id : String} {r : Resource} {row : Row} (hid : q.id = some id)
      (hr : e.graph.get? q.typeName id = some r) (hrow : e.RowFits q r row) :
      ResultFits q (.map row)
  | rows {rows : List Row} (hid : q.id = none) (hgroups : q.groups = [])
      (hrows : ∀ row ∈ rows, ∃ r ∈ e.graph.scan q.typeName, e.RowFits q r row) :
      ResultFits q (.list (rows.map .map))
  | groupRows {rows : List Row} {last : Group} (hid : q.id = none)
      (hlast : q.groups.getLast? = some last) (hrows : ∀ row ∈ rows, last.HasOutputs row) :
      ResultFits q (.list (rows.map .map))

end

/-! ## 3. The entries of a row -/

theorem isSome_fieldEntry? {r : Resource} {source : String} :
    (e.fieldEntry? r source).isSome = true ↔ e.Shows r (.field source) := by
  have hdeclared : (((e.schema.type? r.typeName).bind fun t => t.attribute? source).isSome = true) ↔
      ∃ t a, e.schema.type? r.typeName = some t ∧ t.attribute? source = some a := by
    rw [Option.isSome_iff_exists]
    simp only [Option.bind_eq_some_iff]
    exact exists_comm.trans (by simp only [exists_and_left])
  have hentry : (e.fieldEntry? r source).isSome =
      ((r.field? (e.idAttribute r.typeName) source).isSome ||
        ((e.schema.type? r.typeName).bind fun t => t.attribute? source).isSome) := by
    unfold fieldEntry?
    cases r.field? (e.idAttribute r.typeName) source with
    | some v => rfl
    | none => cases (e.schema.type? r.typeName).bind fun t => t.attribute? source <;> rfl
  rw [hentry, Bool.or_eq_true, Resource.isSome_field?, hdeclared, Shows]
  simp only [or_assoc, or_comm, or_left_comm]

/-- How the entry of a sub-query comes about: from all resources under the relationship if there
may be many, else from the first one, if there is one and it is accepted. -/
theorem entryOf_subquery_cases {key : String} {q : Query} {r : Resource} {v? : Option Value}
    (h : e.entryOf key (.subquery q) r = .ok v?) :
    ∃ v, v? = some v ∧
      ((e.isMany r.typeName key = true ∧ ∃ targets,
          (refsOf r key).mapM (e.resolve r key) = .ok targets ∧
            e.collect (e.rowOf q.select) q targets = .ok v) ∨
        (e.isMany r.typeName key = false ∧ (refsOf r key).head? = none ∧ v = .null) ∨
        (e.isMany r.typeName key = false ∧ ∃ ref target, (refsOf r key).head? = some ref ∧
          e.resolve r key ref = .ok target ∧
            ((e.accepts q.filter target = .ok true ∧
                ∃ row, e.rowOf q.select target = .ok row ∧ v = .map row) ∨
              (e.accepts q.filter target = .ok false ∧ v = .null)))) := by
  obtain ⟨typeName, id, select, filter, order, slice, groups⟩ := q
  rw [entryOf] at h
  split at h
  · next hmany =>
    obtain ⟨targets, htargets, h⟩ := bind_eq_ok.mp h
    obtain ⟨v, hv, h⟩ := bind_eq_ok.mp h
    exact ⟨v, (pure_eq_ok.mp h).symm, Or.inl ⟨hmany, targets, htargets, hv⟩⟩
  · next hone =>
    have hone := Bool.eq_false_iff.mpr hone
    split at h
    · next hnone => exact ⟨.null, (Except.ok.inj h).symm, Or.inr (Or.inl ⟨hone, hnone, rfl⟩)⟩
    · next ref href =>
      obtain ⟨target, htarget, h⟩ := bind_eq_ok.mp h
      obtain ⟨kept, hkept, h⟩ := bind_eq_ok.mp h
      cases kept with
      | true =>
        obtain ⟨row, hrow, h⟩ := bind_eq_ok.mp h
        exact ⟨.map row, (pure_eq_ok.mp h).symm, Or.inr (Or.inr
          ⟨hone, ref, target, href, htarget, Or.inl ⟨hkept, row, hrow, rfl⟩⟩)⟩
      | false =>
        exact ⟨.null, (pure_eq_ok.mp h).symm, Or.inr (Or.inr
          ⟨hone, ref, target, href, htarget, Or.inr ⟨hkept, rfl⟩⟩)⟩

/-- An expression and a sub-query always make an entry. -/
theorem isSome_of_entryOf {key : String} {s : Selection} {r : Resource} {v? : Option Value}
    (h : e.entryOf key s r = .ok v?) : v?.isSome = true ↔ e.Shows r s := by
  cases s with
  | field source =>
    rw [entryOf] at h
    rw [← Except.ok.inj h]
    exact isSome_fieldEntry?
  | expression x =>
    rw [entryOf] at h
    obtain ⟨_, -, h⟩ := bind_eq_ok.mp h
    obtain ⟨v, -, h⟩ := bind_eq_ok.mp h
    exact iff_of_true (by rw [← pure_eq_ok.mp h]; rfl) trivial
  | subquery q =>
    obtain ⟨v, rfl, -⟩ := entryOf_subquery_cases h
    exact iff_of_true rfl trivial

theorem rowOf_cons_eq_ok {key : String} {s : Selection} {rest : Select} {r : Resource} {row : Row} :
    e.rowOf ((key, s) :: rest) r = .ok row ↔
      ∃ v? others, e.entryOf key s r = .ok v? ∧ e.rowOf rest r = .ok others ∧
        row = (v?.map fun v => (key, v)).toList ++ others := by
  rw [rowOf]
  simp only [bind_eq_ok]
  constructor
  · rintro ⟨v?, hv, others, hothers, h⟩
    refine ⟨v?, others, hv, hothers, ?_⟩
    cases v? <;> exact (pure_eq_ok.mp h).symm
  · rintro ⟨v?, others, hv, hothers, rfl⟩
    refine ⟨v?, hv, others, hothers, ?_⟩
    cases v? <;> rfl

/-- Every selection of a row that was made has been answered. -/
theorem exists_entryOf_of_mem {select : Select} {r : Resource} {row : Row}
    (h : e.rowOf select r = .ok row) :
    ∀ x ∈ select, ∃ v?, e.entryOf x.1 x.2 r = .ok v? := by
  induction select generalizing row with
  | nil => exact fun x hx => absurd hx List.not_mem_nil
  | cons x rest ih =>
    obtain ⟨v?, others, hv, hothers, -⟩ := rowOf_cons_eq_ok.mp h
    exact List.forall_mem_cons.mpr ⟨⟨v?, hv⟩, ih hothers⟩

/-- The entries of a row are those that its selections make. -/
theorem mem_of_rowOf {select : Select} {r : Resource} {row : Row}
    (h : e.rowOf select r = .ok row) {key : String} {v : Value} :
    (key, v) ∈ row ↔ ∃ s, (key, s) ∈ select ∧ e.entryOf key s r = .ok (some v) := by
  induction select generalizing row with
  | nil =>
    rw [rowOf] at h
    rw [← Except.ok.inj h]
    simp
  | cons x rest ih =>
    obtain ⟨k, s'⟩ := x
    obtain ⟨v?, others, hv, hothers, rfl⟩ := rowOf_cons_eq_ok.mp h
    have hhead : (key, v) ∈ (v?.map fun v => (k, v)).toList ↔
        key = k ∧ e.entryOf k s' r = .ok (some v) := by
      rw [hv]
      cases v? <;> simp [eq_comm]
    rw [List.mem_append, hhead, ih hothers]
    constructor
    · rintro (⟨rfl, hs⟩ | ⟨s, hmem, hs⟩)
      · exact ⟨s', List.mem_cons_self, hs⟩
      · exact ⟨s, List.mem_cons_of_mem _ hmem, hs⟩
    · rintro ⟨s, hmem, hs⟩
      rcases List.mem_cons.mp hmem with heq | hmem
      · obtain ⟨rfl, rfl⟩ := Prod.mk.inj heq
        exact Or.inl ⟨rfl, hs⟩
      · exact Or.inr ⟨s, hmem, hs⟩

theorem keys_rowOf_sublist {select : Select} {r : Resource} {row : Row}
    (h : e.rowOf select r = .ok row) : (Keyed.keys row).Sublist (Keyed.keys select) := by
  induction select generalizing row with
  | nil =>
    rw [rowOf] at h
    rw [← Except.ok.inj h]
    exact List.Sublist.slnil
  | cons x rest ih =>
    obtain ⟨k, s⟩ := x
    obtain ⟨v?, others, -, hothers, rfl⟩ := rowOf_cons_eq_ok.mp h
    cases v? with
    | none => exact (ih hothers).cons k
    | some v => exact (ih hothers).cons_cons k

/-- **A row has entries for the selections that show something**, and no others. -/
theorem mem_keys_of_rowOf {select : Select} {r : Resource} {row : Row}
    (h : e.rowOf select r = .ok row) (key : String) :
    key ∈ Keyed.keys row ↔ ∃ s, (key, s) ∈ select ∧ e.Shows r s := by
  rw [Keyed.keys, List.mem_map]
  constructor
  · rintro ⟨⟨key, v⟩, hmem, rfl⟩
    obtain ⟨s, hs, hv⟩ := (mem_of_rowOf h).mp hmem
    exact ⟨s, hs, (isSome_of_entryOf hv).mp rfl⟩
  · rintro ⟨s, hs, hshows⟩
    obtain ⟨v?, hv⟩ := exists_entryOf_of_mem h (key, s) hs
    obtain ⟨v, rfl⟩ := Option.isSome_iff_exists.mp ((isSome_of_entryOf hv).mpr hshows)
    exact ⟨(key, v), (mem_of_rowOf h).mpr ⟨s, hs, hv⟩, rfl⟩

/-- A row fits if its entries do. -/
theorem rowFits_of_rowOf {q : Query} {r : Resource} {row : Row} (htype : r.typeName = q.typeName)
    (hsorted : Keyed.Sorted q.select) (h : e.rowOf q.select r = .ok row)
    (hentries : ∀ x ∈ q.select, ∀ v, e.entryOf x.1 x.2 r = .ok (some v) →
      e.EntryFits r x.1 x.2 v) : e.RowFits q r row := by
  refine .intro htype (hsorted.sublist (keys_rowOf_sublist h)) (mem_keys_of_rowOf h) ?_
  intro key s v hs hv
  obtain ⟨s', hs', hentry⟩ := (mem_of_rowOf h).mp hv
  -- a key is selected once
  have hsame : some s = some s' := by
    rw [← Keyed.get?_of_mem hsorted.nodup hs, ← Keyed.get?_of_mem hsorted.nodup hs']
  exact Option.some.inj hsame ▸ hentries (key, s') hs' v hentry

/-! ## 4. Collections -/

/-- **A collection is a list**: of rows of its resources, or of group rows. -/
theorem collect_cases {rowOf : Resource → Except QueryError Row} {q : Query} {depth : Nat}
    {rs : List Resource} {v : Value} (hq : q.ClausesNormal e.toDialect depth)
    (hclosed : ∀ g ∈ q.groups, g.Closed) (h : e.collect rowOf q rs = .ok v) :
    (∃ rows : List Row, v = .list (rows.map .map) ∧ q.groups = [] ∧
        ∀ row ∈ rows, ∃ r ∈ rs, rowOf r = .ok row) ∨
      ∃ (rows : List Row) (last : Group), v = .list (rows.map .map) ∧
        q.groups.getLast? = some last ∧ ∀ row ∈ rows, last.HasOutputs row := by
  obtain ⟨kept, hkept, h⟩ := bind_eq_ok.mp h
  obtain ⟨rows, hrows, h⟩ := bind_eq_ok.mp h
  split at h
  · next hgroups =>
    refine Or.inl ⟨rows, (pure_eq_ok.mp h).symm, hgroups, fun row hrow => ?_⟩
    obtain ⟨r, hr, hrowOf⟩ := exists_of_mem_mapM hrows hrow
    exact ⟨r, mem_of_mem_chosen hkept hr, hrowOf⟩
  · next hgroups =>
    obtain ⟨made, hmade, h⟩ := bind_eq_ok.mp h
    have hlast := List.getLast?_eq_some_getLast hgroups
    refine Or.inr ⟨made, _, (pure_eq_ok.mp h).symm, hlast, fun row hrow => ?_⟩
    exact hasOutputs_of_mem_groupRows (fun g hg => ⟨hq.groups.normal_of_mem hg, hclosed g hg⟩)
      hlast hmade hrow

/-! ## 5. Sub-queries -/

/-- How many resources there may be under a relationship is what the schema says. -/
theorem isMany_of_relationship? {typeName name : String} {rel : Relationship}
    (h : e.schema.relationship? typeName name = some rel) :
    e.isMany typeName name = rel.isMany := by
  rw [isMany, h]
  rfl

theorem resolve?_of_resolve {r target : Resource} {name : String} {ref : Ref}
    (h : e.resolve r name ref = .ok target) : e.graph.resolve? ref = some target := by
  unfold resolve at h
  split at h
  · next hresolve => rw [hresolve, Except.ok.inj h]
  · cases h

/-- The entry of a sub-query fits if the rows under the relationship do. -/
theorem entryFits_of_subquery {r : Resource} {key : String} {q : Query} {depth : Nat}
    {rel : Relationship} {v : Value}
    (hrel : e.schema.relationship? r.typeName key = some rel)
    (hq : q.ClausesNormal e.toDialect depth) (hclosed : ∀ g ∈ q.groups, g.Closed)
    (hrows : ∀ target row, e.PointsAt r key target → e.rowOf q.select target = .ok row →
      e.RelatedFits r key q row)
    (h : e.entryOf key (.subquery q) r = .ok (some v)) : e.EntryFits r key (.subquery q) v := by
  obtain ⟨w, hvw, hcases⟩ := entryOf_subquery_cases h
  obtain rfl : v = w := Option.some.inj hvw
  rw [isMany_of_relationship? hrel] at hcases
  rcases hcases with ⟨hmany, targets, htargets, hcollect⟩ | ⟨hone, -, rfl⟩ |
    ⟨hone, ref, target, href, htarget, ⟨-, row, hrow, rfl⟩ | ⟨-, rfl⟩⟩
  · rcases collect_cases hq hclosed hcollect with
      ⟨rows, rfl, hgroups, hmem⟩ | ⟨rows, last, rfl, hlast, hmem⟩
    · refine .rows hrel hmany hgroups fun row hrow => ?_
      obtain ⟨target, htarget, hrowOf⟩ := hmem row hrow
      obtain ⟨ref, href, hresolve⟩ := exists_of_mem_mapM htargets htarget
      exact hrows target row ⟨ref, href, resolve?_of_resolve hresolve⟩ hrowOf
    · exact .groupRows hrel hmany hlast hmem
  · exact .null hrel hone
  · have hmem : ref ∈ refsOf r key := List.mem_of_mem_head? href
    exact .row hrel hone (hrows target row ⟨ref, hmem, resolve?_of_resolve htarget⟩ hrow)
  · exact .null hrel hone

/-- Below a relationship, references that fit lead to resources of its target type. -/
theorem typeName_of_pointsAt (hgraph : e.graph.Built) (hrefs : e.RefsFit) {r target : Resource}
    {typeName id name : String} {rel : Relationship} (hr : e.graph.get? typeName id = some r)
    (hrel : e.schema.relationship? r.typeName name = some rel) (h : e.PointsAt r name target) :
    target.typeName = rel.target := by
  obtain ⟨ref, href, hresolve⟩ := h
  rw [← hrefs _ _ _ _ _ hr hrel ref href, ← hgraph.ref_of_resolve? hresolve]
  rfl

/-- **The entry of a normal selection that was validated fits it.**  The induction goes down the
sub-queries; what carries it is that every resource met below has the type of the sub-query. -/
theorem entryFits_of_entryOf (hgraph : e.graph.Built) (hrefs : e.RefsFit) {t : ResourceType}
    {depth : Nat} {key : String} {s : Selection} (h : s.Normal e.toDialect t depth key)
    (hvalid : e.schema.checkSelection t key s = .ok ()) {r : Resource} {typeName id : String}
    (hr : e.graph.get? typeName id = some r) (ht : e.schema.type? r.typeName = some t) {v : Value}
    (hv : e.entryOf key s r = .ok (some v)) : e.EntryFits r key s v := by
  induction h generalizing r typeName id v with
  | field _ => exact .field
  | expression _ => exact .expression
  | @subquery t target depth key q rel hrel hqtype _ htarget hq _ ih =>
    obtain ⟨hselect, hclauses⟩ := Schema.checks_of_checkSelection hrel hqtype htarget hvalid
    have hrel : e.schema.relationship? r.typeName key = some rel := by
      rw [Schema.relationship?, ht]
      exact hrel
    refine entryFits_of_subquery hrel hq (QueryOf.closed_of_checkClauses hclauses)
      (fun r' row hpoints hrow => .intro hpoints ?_) hv
    have htype : r'.typeName = q.typeName :=
      (typeName_of_pointsAt hgraph hrefs hr hrel hpoints).trans hqtype.symm
    obtain ⟨ref, -, hresolve⟩ := hpoints
    exact rowFits_of_rowOf htype hq.sorted hrow fun x hx v hv =>
      ih x hx (hselect x hx) hresolve (by rw [htype]; exact htarget) hv

/-! ## 6. Queries -/

/-- The result of a normal query that was validated fits it. -/
theorem resultFits_of_project (hgraph : e.graph.Built) (hrefs : e.RefsFit) {t : ResourceType}
    {depth : Nat} {q : Query} (h : q.Normal e.toDialect t depth)
    (hvalid : e.schema.validate q = .ok ()) {v : Value} (hv : e.project q = .ok v) :
    e.ResultFits q v := by
  obtain ⟨hselect, hclauses⟩ := Schema.checks_of_validate h.type hvalid
  have hrow : ∀ {id r row}, e.graph.get? q.typeName id = some r →
      e.rowOf q.select r = .ok row → e.RowFits q r row := by
    intro id r row hr hrow
    have htype : r.typeName = q.typeName := congrArg Ref.typeName (hgraph.ref_of_get? hr)
    exact rowFits_of_rowOf htype h.clauses.sorted hrow fun x hx v hv =>
      entryFits_of_entryOf hgraph hrefs (h.select x hx) (hselect x hx) hr
        (by rw [htype]; exact h.type) hv
  unfold project at hv
  split at hv
  · next hid =>
    rcases collect_cases h.clauses (QueryOf.closed_of_checkClauses hclauses) hv with
      ⟨rows, rfl, hgroups, hmem⟩ | ⟨rows, last, rfl, hlast, hmem⟩
    · refine .rows hid hgroups fun row hrow' => ?_
      obtain ⟨r, hr, hrowOf⟩ := hmem row hrow'
      obtain ⟨id, hget⟩ := Graph.exists_get?_of_mem_scan hr
      exact ⟨r, hr, hrow hget hrowOf⟩
    · exact .groupRows hid hlast hmem
  · next id hid =>
    split at hv
    · next hnone => exact Except.ok.inj hv ▸ .null hid hnone
    · next r hr =>
      obtain ⟨row, hrowOf, hv⟩ := bind_eq_ok.mp hv
      exact pure_eq_ok.mp hv ▸ .row hid hr (hrow hr hrowOf)

/-- **Every result fits its query.**  In a graph that was built, and whose references go where the
schema says, what the execution of a document gives has the shape that its query asks for. -/
theorem execute_resultFits (e : Engine) (hgraph : e.graph.Built) (hrefs : e.RefsFit)
    (document v : Value) (hv : e.execute document = .ok v) :
    ∃ q, e.normalize document = .ok q ∧ e.ResultFits q v := by
  obtain ⟨q, hq, hrun⟩ := bind_eq_ok.mp hv
  obtain ⟨hvalid, hproject⟩ := check_bind_eq_ok.mp hrun
  obtain ⟨⟨t, hnormal⟩, -⟩ := Dialect.normalize_normal hq
  exact ⟨q, hq, resultFits_of_project hgraph hrefs hnormal hvalid hproject⟩

/-- References fit if all that the graph holds do. -/
theorem RefsFit.of_forall
    (h : ∀ byId ∈ e.graph.resources, ∀ entry ∈ byId.2, ∀ l ∈ entry.2.links,
      ∀ rel ∈ e.schema.relationship? entry.2.typeName l.1,
        ∀ ref ∈ l.2.refs, ref.typeName = rel.target) : e.RefsFit := by
  intro typeName id name r rel hr hrel ref href
  obtain ⟨byId, hbyId, entry, hentry, rfl⟩ := Graph.Has.exists_mem ⟨typeName, id, hr⟩
  obtain ⟨links, hlinks, href⟩ := exists_links_of_mem_refsOf href
  exact h byId hbyId entry hentry (name, links) hlinks rel hrel ref href

/-- An office in which the stored forms are the wrong way round: many bosses, of whom the schema has
one, and one friend, of whom the schema has many. -/
def office : Engine where
  schema := ⟨[("Person", {
    name := "Person"
    attributes := [("age", ⟨"age", "Int"⟩), ("name", ⟨"name", "String"⟩)]
    relationships := [("boss", ⟨"boss", "Person", .one, none⟩),
      ("friends", ⟨"friends", "Person", .many, none⟩)] })]⟩
  graph := {
    resources := [("Person", [
      ("ann", {
        id := "ann", typeName := "Person", attributes := [("name", .string "Ann")]
        links := [("boss", .many [⟨"Person", "bob"⟩, ⟨"Person", "ann"⟩]),
          ("friends", .one (some ⟨"Person", "bob"⟩))] }),
      ("bob", { id := "bob", typeName := "Person", attributes := [("name", .string "Bob")] })])]
    index := ⟨[("Person", ["ann", "bob"])]⟩ }

/-- Everyone with the boss and with the bosses of the friends. -/
def officeDocument : Value := .map [
  ("select", .list [.string "age", .string "nickname", .map [
    ("boss", .map [("select", .string "name")]),
    ("friends", .map [("select", .map [("boss", .map [("select", .string "name")])])])]]),
  ("type", .string "Person")]

/-- The rows of Ann and of Bob, who has neither. -/
def officeResult : Value := .list [
  .map [("age", .null), ("boss", .map [("name", .string "Bob")]),
    ("friends", .list [.map [("boss", .null)]])],
  .map [("age", .null), ("boss", .null), ("friends", .list [])]]

theorem execute_resultFits_office :
    office.graph.Built ∧ office.RefsFit ∧ office.execute officeDocument = .ok officeResult ∧
      ∃ q, office.normalize officeDocument = .ok q ∧ office.ResultFits q officeResult := by
  have hinsert : (office.graph.scan "Person").foldlM Graph.insert .empty = .ok office.graph := by
    decide +kernel
  have hgraph : office.graph.Built := Graph.Built.empty.insertAll hinsert
  have hrefs : office.RefsFit := .of_forall (by decide +kernel)
  have hv : office.execute officeDocument = .ok officeResult := by decide +kernel
  exact ⟨hgraph, hrefs, hv, execute_resultFits office hgraph hrefs _ _ hv⟩

end Engine

end GraphQuery
