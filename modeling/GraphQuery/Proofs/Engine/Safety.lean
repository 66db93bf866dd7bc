/-
# What the static stages rule out

A query document goes through three stages: it is normalized, validated against the schema, and
projected.  The first two are static: they look at the query and the schema, never at the graph.

* What was normalized can be refused by validation only for a name that is not declared, an anchor
  that does not fit its order, or a group clause under a relationship to one resource
  (`QueryError.isStatic`).
* What was normalized and validated can fail in projection only because of the data: a reference to
  nothing, an operand that does not fit its operator, or a text that is no pattern
  (`QueryError.isRunTime`).  Or the program stops in a sort (`QueryError.isStop`): no check looks at
  what is sorted, and values of the data may compare in a circle.

**`normalized_failsOnly`** states both, and **`project_stops`** is a stop.  The two passes divide the
work: normalization has checked every expression (`QueryOf.Normal`), validation every slice
(`QueryOf.SlicesFit`), and both have done so for each of the queries within a query.
-/
import GraphQuery.Engine.Execution
import GraphQuery.Proofs.Engine.Origins
import GraphQuery.Proofs.Query.Rereading
import GraphQuery.Proofs.Rows.GroupKeys
import GraphQuery.Proofs.Rows.Safety
import GraphQuery.Proofs.Schema.Building

namespace GraphQuery

/-! ## 1. Errors of validation -/

/-- The error is one of those that validation finds in a query that could be read. -/
def QueryError.isStatic : QueryError → Bool
  | unknownField _ _ | invalidAnchor _ | anchorWithoutOrder => true
  | invalidQuery (.groupedToOne _) => true
  | _ => false

theorem QueryError.isCaller_of_isStatic {err : QueryError} (h : err.isStatic = true) :
    err.isCaller = true := by
  cases err with
  | danglingReference _ _ _ | expression _ => cases h
  | _ => rfl

theorem requireKnown_failsOnly (within : String) (known : String → Bool) (names : List String) :
    FailsOnly (·.isStatic) (requireKnown within known names) := by
  unfold requireKnown
  split
  · exact .error rfl
  · exact .ok

theorem Filter.check_failsOnly (within : String) (known : String → Bool) (f? : Option Filter) :
    FailsOnly (·.isStatic) (Filter.check within known f?) := by
  cases f? with
  | none => exact .ok
  | some f => exact requireKnown_failsOnly _ _ _

theorem checkAnchor_failsOnly (order : List OrderKey) (a : Anchor) :
    FailsOnly (·.isStatic) (checkAnchor order a) := by
  unfold checkAnchor
  split
  · exact .error rfl
  · split
    · exact .error rfl
    · exact .ok

theorem Slice.check_failsOnly (order : List OrderKey) (s : Slice) :
    FailsOnly (·.isStatic) (s.check order) := by
  unfold Slice.check
  split
  · exact .ok
  · split
    · exact .error rfl
    · exact .forM fun a _ => checkAnchor_failsOnly order a

theorem GroupOf.check_failsOnly (within : String) (known : List String) (g : Group) :
    FailsOnly (·.isStatic) (g.check within known) :=
  .bind (requireKnown_failsOnly _ _ _) fun _ _ => .bind (requireKnown_failsOnly _ _ _) fun _ _ =>
    .bind (requireKnown_failsOnly _ _ _) fun _ _ => .bind (Filter.check_failsOnly _ _ _) fun _ _ =>
    .bind (requireKnown_failsOnly _ _ _) fun _ _ => Slice.check_failsOnly _ _

theorem checkGroups_failsOnly (within : String) (known : List String) (groups : List Group) :
    FailsOnly (·.isStatic) (checkGroups within known groups) := by
  induction groups generalizing within known with
  | nil => exact .ok
  | cons g inner ih => exact .bind (g.check_failsOnly within known) fun _ _ => ih _ _

theorem QueryOf.checkClauses_failsOnly (t : ResourceType) (q : Query) :
    FailsOnly (·.isStatic) (q.checkClauses t) :=
  .bind (Filter.check_failsOnly _ _ _) fun _ _ => .bind (requireKnown_failsOnly _ _ _) fun _ _ =>
    .bind (Slice.check_failsOnly _ _) fun _ _ => checkGroups_failsOnly _ _ _

namespace Schema

variable {s : Schema}

theorem checkSelect_eq_forM (t : ResourceType) (select : Select) :
    s.checkSelect t select = select.forM fun e => s.checkSelection t e.1 e.2 := by
  induction select with
  | nil => rw [checkSelect]; rfl
  | cons e rest ih => rw [checkSelect, ih]; rfl

/-- A normal sub-query has the target of its relationship, so only grouping is left to be refused
before its own clauses are looked at. -/
theorem checkSelection_subquery {t target : ResourceType} {key : String} {q : Query}
    {r : Relationship} (hr : t.relationship? key = some r) (htype : q.typeName = r.target)
    (htarget : s.type? q.typeName = some target) :
    s.checkSelection t key (.subquery q) =
      if !r.isMany && !q.groups.isEmpty then .error (.invalidQuery (.groupedToOne key))
      else s.checkSelect target q.select >>= fun _ => q.checkClauses target := by
  obtain ⟨typeName, id, select, filter, order, slice, groups⟩ := q
  rw [checkSelection, hr]
  dsimp only at htype htarget ⊢
  rw [if_neg (not_not.mpr htype.symm), requireType, htarget]
  rfl

/-- Only static errors are found in a normal selection. -/
theorem checkSelection_failsOnly {d : Dialect} {t : ResourceType} {depth : Nat} {key : String}
    {x : Selection} (h : x.Normal d t depth key) :
    FailsOnly (·.isStatic) (d.schema.checkSelection t key x) := by
  induction h with
  | field _ => rw [checkSelection]; exact .ok
  | expression _ => rw [checkSelection]; exact .ok
  | @subquery t target depth key q r hr htype _ htarget _ _ ih =>
    rw [checkSelection_subquery hr htype htarget]
    split
    · exact .error rfl
    · rw [checkSelect_eq_forM]
      exact .bind (.forM ih) fun _ _ => q.checkClauses_failsOnly target

theorem validate_failsOnly {d : Dialect} {t : ResourceType} {depth : Nat} {q : Query}
    (h : q.Normal d t depth) : FailsOnly (·.isStatic) (d.schema.validate q) := by
  refine .bind (.of_eq_ok (Dialect.requireType_eq_ok_iff.mpr h.type)) fun t' ht' => ?_
  obtain rfl : t = t' :=
    Option.some.inj (h.type.symm.trans (Dialect.requireType_eq_ok_iff.mp ht'))
  rw [checkSelect_eq_forM]
  exact .bind (.forM fun e he => checkSelection_failsOnly (h.select e he)) fun _ _ =>
    q.checkClauses_failsOnly t

theorem requireType_isCaller (name : String) : FailsOnly (·.isCaller) (s.requireType name) := by
  unfold requireType
  split
  · exact .ok
  · exact .error rfl

theorem checkClauses_isCaller (t : ResourceType) (q : Query) :
    FailsOnly (·.isCaller) (q.checkClauses t) := fun err herr =>
  QueryError.isCaller_of_isStatic (q.checkClauses_failsOnly t err herr)

mutual
theorem checkSelect_isCaller : (select : List (String × Selection)) → ∀ t : ResourceType,
    FailsOnly (·.isCaller) (s.checkSelect t select)
  | [], _ => by
    rw [checkSelect]
    exact .ok
  | (key, x) :: rest, t => by
    rw [checkSelect]
    exact (checkSelection_isCaller x t key).bind fun _ _ => checkSelect_isCaller rest t
termination_by structural select => select
theorem checkSelection_isCaller : (x : Selection) → ∀ (t : ResourceType) (key : String),
    FailsOnly (·.isCaller) (s.checkSelection t key x)
  | .field _, _, _ => by
    rw [checkSelection]
    exact .ok
  | .expression _, _, _ => by
    rw [checkSelection]
    exact .ok
  | .subquery ⟨typeName, id, select, filter, order, slice, groups⟩, t, key => by
    rw [checkSelection]
    split
    · exact .error rfl
    · split_ifs
      · exact .error rfl
      · exact .error rfl
      · exact (requireType_isCaller typeName).bind fun target _ =>
          (checkSelect_isCaller select target).bind fun _ _ => checkClauses_isCaller target _
termination_by structural x => x
end

/-- **Validation finds only faults of the caller**, in any query. -/
theorem validate_isCaller (q : Query) : FailsOnly (·.isCaller) (s.validate q) :=
  (requireType_isCaller q.typeName).bind fun t _ =>
    (checkSelect_isCaller q.select t).bind fun _ _ => checkClauses_isCaller t q

end Schema

/-! ## 2. What validation leaves behind -/

namespace Schema

variable {s : Schema} {q : Query}

/-- A sub-query that passes has passed in all its parts. -/
theorem checks_of_checkSelection {t target : ResourceType} {key : String} {r : Relationship}
    (hr : t.relationship? key = some r) (htype : q.typeName = r.target)
    (htarget : s.type? q.typeName = some target)
    (h : s.checkSelection t key (.subquery q) = .ok ()) :
    (∀ x ∈ q.select, s.checkSelection target x.1 x.2 = .ok ()) ∧ q.checkClauses target = .ok () := by
  rw [checkSelection_subquery hr htype htarget] at h
  split_ifs at h
  rwa [check_bind_eq_ok, checkSelect_eq_forM, forM_eq_ok_iff] at h

/-- So has a query. -/
theorem checks_of_validate {t : ResourceType} (htype : s.type? q.typeName = some t)
    (h : s.validate q = .ok ()) :
    (∀ x ∈ q.select, s.checkSelection t x.1 x.2 = .ok ()) ∧ q.checkClauses t = .ok () := by
  rwa [validate, Dialect.requireType_eq_ok_iff.mpr htype, ok_bind, check_bind_eq_ok,
    checkSelect_eq_forM, forM_eq_ok_iff] at h

end Schema

/-- The slices of a query and of its group levels fit their orders. -/
structure QueryOf.SlicesFit (q : Query) : Prop where
  slice : q.slice.check q.order = .ok ()
  groups : ∀ g ∈ q.groups, g.slice.check g.order = .ok ()

theorem QueryOf.SlicesFit.of_checkClauses {t : ResourceType} {q : Query}
    (h : q.checkClauses t = .ok ()) : q.SlicesFit := by
  simp only [QueryOf.checkClauses, check_bind_eq_ok] at h
  obtain ⟨-, -, hslice, hgroups⟩ := h
  refine ⟨hslice, fun g hg => ?_⟩
  obtain ⟨_, _, hcheck⟩ := exists_check_of_checkGroups hgroups g hg
  exact (GroupOf.check_eq_ok_iff.mp hcheck).2.2.2

/-! ## 3. The queries within a query -/

namespace Schema

variable {s : Schema}

/-- The clauses of a sub-query are checked on some type. -/
theorem exists_target_of_checkSelection {t : ResourceType} {key : String} {q : Query}
    (h : s.checkSelection t key (.subquery q) = .ok ()) :
    ∃ target, s.checkSelect target q.select = .ok () ∧ q.checkClauses target = .ok () := by
  obtain ⟨typeName, id, select, filter, order, slice, groups⟩ := q
  rw [checkSelection] at h
  split at h
  · cases h
  · split_ifs at h
    obtain ⟨target, -, h⟩ := bind_eq_ok.mp h
    exact ⟨target, check_bind_eq_ok.mp h⟩

mutual
/-- The clauses of every query within a selection that was checked have been checked on some type. -/
theorem exists_checkClauses_of_checkSelect : (select : List (String × Selection)) →
    ∀ t : ResourceType, s.checkSelect t select = .ok () →
      ∀ q ∈ Select.queries select, ∃ t, q.checkClauses t = .ok ()
  | [], _, _ => fun q hq => absurd hq (by rw [Select.queries]; exact List.not_mem_nil)
  | (key, x) :: rest, t, h => by
    rw [checkSelect, check_bind_eq_ok] at h
    rw [Select.queries, List.forall_mem_append]
    exact ⟨exists_checkClauses_of_checkSelection x t key h.1,
      exists_checkClauses_of_checkSelect rest t h.2⟩
termination_by structural select => select
theorem exists_checkClauses_of_checkSelection : (x : Selection) → ∀ (t : ResourceType)
    (key : String), s.checkSelection t key x = .ok () →
      ∀ q ∈ x.queries, ∃ t, q.checkClauses t = .ok ()
  | .field _, _, _, _ => fun q hq => absurd hq (by rw [Selection.queries]; exact List.not_mem_nil)
  | .expression _, _, _, _ =>
    fun q hq => absurd hq (by rw [Selection.queries]; exact List.not_mem_nil)
  | .subquery ⟨typeName, id, select, filter, order, slice, groups⟩, t, key, h => by
    obtain ⟨target, hselect, hclauses⟩ := exists_target_of_checkSelection h
    rw [Selection.queries, List.forall_mem_cons]
    exact ⟨⟨target, hclauses⟩, exists_checkClauses_of_checkSelect select target hselect⟩
termination_by structural x => x
end

/-- **In a query that was validated the clauses of all queries have been checked.** -/
theorem exists_checkClauses_of_validate {q : Query} (h : s.validate q = .ok ()) :
    ∀ q' ∈ q.queries, ∃ t, q'.checkClauses t = .ok () := by
  rw [validate, bind_eq_ok] at h
  obtain ⟨t, -, h⟩ := h
  obtain ⟨hselect, hclauses⟩ := check_bind_eq_ok.mp h
  rw [QueryOf.queries, List.forall_mem_cons]
  exact ⟨⟨t, hclauses⟩, exists_checkClauses_of_checkSelect q.select t hselect⟩

/-- **In a query that was validated all slices fit their orders.** -/
theorem slicesFit_of_validate {q : Query} (h : s.validate q = .ok ()) :
    ∀ q' ∈ q.queries, q'.SlicesFit := by
  intro q' hq'
  obtain ⟨t, hclauses⟩ := exists_checkClauses_of_validate h q' hq'
  exact .of_checkClauses hclauses

end Schema

variable {d : Dialect} {t : ResourceType} {depth : Nat}

theorem Selection.Normal.exists_normal_of_mem_queries {key : String} {s : Selection}
    (h : s.Normal d t depth key) : ∀ q ∈ s.queries, ∃ t depth, q.Normal d t depth := by
  induction h with
  | field _ => exact fun q hq => absurd hq (by rw [queries]; exact List.not_mem_nil)
  | expression _ => exact fun q hq => absurd hq (by rw [queries]; exact List.not_mem_nil)
  | @subquery t target depth key q r _ _ _ htarget hclauses hselect ih =>
    rw [queries_subquery, QueryOf.queries, List.forall_mem_cons]
    refine ⟨⟨target, depth + 1, htarget, hclauses, hselect⟩, fun q' hq' => ?_⟩
    obtain ⟨x, hx, hq'⟩ := Select.mem_queries.mp hq'
    exact ih x hx q' hq'

/-- **In a normal query all queries are normal.** -/
theorem QueryOf.Normal.exists_normal_of_mem_queries {q : Query} (h : q.Normal d t depth) :
    ∀ q' ∈ q.queries, ∃ t depth, q'.Normal d t depth := by
  rw [queries, List.forall_mem_cons]
  refine ⟨⟨t, depth, h⟩, fun q' hq' => ?_⟩
  obtain ⟨x, hx, hq'⟩ := Select.mem_queries.mp hq'
  exact (h.select x hx).exists_normal_of_mem_queries q' hq'

/-! ## 4. Projection -/

/-- Normality gives the expressions of a query, validation its slices. -/
theorem QueryOf.Normal.failsWithin_isLate (htable : d.operators.FailsOnData) {q : Query}
    (h : q.Normal d t depth) (hslices : q.SlicesFit) :
    q.FailsWithin (·.isLate) d.operators where
  slice := .of_eq_ok hslices.slice
  expression key x hx view := by
    have hnormal : (Selection.expression x).Normal d t depth key := h.select (key, .expression x) hx
    cases hnormal with
    | expression haccepts =>
      exact QueryError.ofExpr_failsOnly (haccepts.evaluate_failsOnly htable _)
  filter f hf view :=
    QueryError.ofExpr_failsOnly ((h.clauses.filter f hf).holds_failsOnly htable _)
  groups g hg :=
    { slice := .of_eq_ok (hslices.groups g hg)
      rows := fun _ => QueryError.ofExpr_failsOnly
        ((h.clauses.groups.normal_of_mem hg).rowsOf_failsOnly htable _) }

namespace Engine

variable {e : Engine}

theorem project_failsOnly (htable : e.operators.FailsOnData) {t : ResourceType} {depth : Nat}
    {q : Query} (h : q.Normal e.toDialect t depth) (hvalid : e.schema.validate q = .ok ()) :
    FailsOnly (·.isLate) (e.project q) := by
  refine project_failsOnly_of (P := (·.isLate)) rfl (.of_dangling fun _ _ _ => rfl) fun q' hq' => ?_
  obtain ⟨t', depth', hnormal⟩ := h.exists_normal_of_mem_queries q' hq'
  exact hnormal.failsWithin_isLate htable (Schema.slicesFit_of_validate hvalid q' hq')

/-- One person, whose friend is missing. -/
def people : Engine where
  toDialect := Dialect.people
  graph := {
    resources := [("Person", [("ann", {
      id := "ann", typeName := "Person"
      attributes := [("age", .int 30), ("name", .string "Ann")]
      links := [("friends", .many [⟨"Person", "bob"⟩])] })])]
    index := ⟨[("Person", ["ann"])]⟩ }

/-- **What the static stages rule out.**  If a document is normalized, validation fails only with a
static error; if validation passes too, projection fails only with an error of the data, or the program
stops in a sort. -/
theorem normalized_failsOnly (e : Engine) (htable : e.operators.FailsOnData) (document : Value)
    (q : Query) (hq : e.normalize document = .ok q) :
    (∀ err, e.schema.validate q = .error err → err.isStatic = true) ∧
      (e.schema.validate q = .ok () →
        ∀ err, e.project q = .error err → err.isRunTime = true ∨ err.isStop = true) := by
  obtain ⟨⟨t, hnormal⟩, -⟩ := Dialect.normalize_normal hq
  refine ⟨Schema.validate_failsOnly hnormal, fun hvalid err herr => ?_⟩
  exact Bool.or_eq_true_iff.mp (project_failsOnly htable hnormal hvalid err herr)

theorem normalized_failsOnly_people :
    people.operators.FailsOnData ∧
      people.normalize Dialect.peopleDocument = .ok Dialect.peopleQuery ∧
      people.schema.validate Dialect.peopleQuery = .ok () ∧
      ∃ err, people.project Dialect.peopleQuery = .error err ∧
        (err.isRunTime = true ∨ err.isStop = true) := by
  have htable : people.operators.FailsOnData := OperatorTable.standard_failsOnData
  have hq : people.normalize Dialect.peopleDocument = .ok Dialect.peopleQuery := by decide +kernel
  have hvalid : people.schema.validate Dialect.peopleQuery = .ok () := by decide +kernel
  have hproject : people.project Dialect.peopleQuery =
      .error (.danglingReference ⟨"Person", "ann"⟩ "friends" ⟨"Person", "bob"⟩) := by decide +kernel
  obtain ⟨-, hrun⟩ := normalized_failsOnly people htable _ _ hq
  exact ⟨htable, hq, hvalid, _, hproject, hrun hvalid _ hproject⟩

/-- People whose ages tie in a circle: two whole numbers, and a real that ties with both. -/
def circle : Engine where
  toDialect := Dialect.people
  graph :=
    let greater := Value.int 9007199254740993
    let between := Value.float (.ofInt 9007199254740992)
    let less := Value.int 9007199254740992
    let ages := [greater, less] ++ List.replicate 9 between ++ [less] ++ List.replicate 10 between
    let ids := ["a", "b", "c", "d", "e", "f", "g", "h", "i", "j", "k", "l", "m", "n", "o", "p", "q",
      "r", "s", "t", "u", "v"]
    { resources := [("Person", (ids.zip ages).map fun (id, age) =>
        (id, { id, typeName := "Person", attributes := [("age", age)] }))]
      index := ⟨[("Person", ids)]⟩ }

/-- The ages of all people, from the least to the greatest. -/
def byAgeDocument : Value := .map [
  ("order", .string "age"), ("select", .string "age"), ("type", .string "Person")]

/-- The query for them. -/
def byAgeQuery : Query where
  typeName := "Person"
  select := [("age", .field "age")]
  order := [⟨"age", .asc⟩]

/-- **A sort stops the program after both stages have passed**: ages that tie in a circle have no
order, and there are too many of them to be sorted by insertion. -/
theorem project_stops :
    circle.operators.FailsOnData ∧ circle.schema.Built ∧ circle.graph.Built ∧
      circle.normalize byAgeDocument = .ok byAgeQuery ∧
      circle.schema.validate byAgeQuery = .ok () ∧
      ∃ err, circle.project byAgeQuery = .error err ∧ err.isRunTime = false := by
  have hinsert : (circle.graph.scan "Person").foldlM Graph.insert .empty = .ok circle.graph := by
    decide +kernel
  have hgraph : circle.graph.Built := Graph.Built.empty.insertAll hinsert
  have hschema : circle.schema.Built := ⟨[{
    name := "Person"
    declarations := [.attr "age" "Int", .attr "name" "String",
      .relationship ⟨"friends", "Person", .many, some "friends"⟩] }], by decide +kernel⟩
  have hproject : circle.project byAgeQuery = .error (.expression .stopped) := by decide +kernel
  exact ⟨OperatorTable.standard_failsOnData, hschema, hgraph, by decide +kernel, by decide +kernel, _,
    hproject, rfl⟩

end Engine

end GraphQuery
