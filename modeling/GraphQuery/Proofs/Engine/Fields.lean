/-
# One field, read in four ways

A query reads a field of a resource where it selects it, where it orders by it, where a filter tests
it, and where an expression gets it.  The first two look it up in the resource, the other two in its
view, in which the relationships stand over the fields.

**`fields_readAlike`: all four find the same value**, for the id and the attributes that the type
declares.  Two things have to agree for it, and need not (`fields_readApart`).

* A relationship that is stored under the name hides the field in the view, but not in a selection.
  The schema does not keep a graph from storing one there, even if the field is a declared attribute
  that the resource lacks.
* Ordering takes the name of the id attribute from the type of the query, selection from that of the
  resource.  In a sub-query they differ if references lead to resources of another type than the
  schema says.
-/
import GraphQuery.Proofs.Engine.Lookup

namespace GraphQuery

/-! ## 1. Values of fields -/

theorem OperatorTable.evaluate_get {t : OperatorTable}
    (h : t.get? "$get" = some (.builtIn (.access .get))) (path : String) (input : Value) :
    t.evaluate (.map [("$get", .string path)]) input = .ok (input.follow (Path.ofText path)) := by
  rw [evaluate_access h]
  rfl

namespace Engine

section

variable (e : Engine) (r : Resource) (field : String)

/-- The field is the id of the resource, or an attribute that its type declares. -/
def Declares : Prop :=
  field = "id" ∨ field = e.idAttribute r.typeName ∨
    ((e.schema.type? r.typeName).bind fun t => t.attribute? field).isSome = true

instance : Decidable (e.Declares r field) :=
  inferInstanceAs (Decidable (_ ∨ _ ∨ _))

/-- The value of a field: the attribute that the resource stores, else its id under the names of the
id, else null. -/
def fieldValue : Value :=
  match r.attribute? field with
  | some v => v
  | none => if field = e.idAttribute r.typeName ∨ field = "id" then .string r.id else .null

/-- All ways to read the field of the resource find the value. -/
structure ReadsAs (v : Value) : Prop where
  selected : ∀ key, e.entryOf key (.field field) r = .ok (some v)
  ordered : ∀ typeName, (field = e.idAttribute typeName ↔ field = e.idAttribute r.typeName) →
    e.orderValue typeName r field = v
  tested : ∀ condition, e.accepts (some (.field field condition)) r =
    QueryError.ofExpr (condition.holds e.operators v)
  viewed : ∃ view, e.view r = .ok view ∧ (Value.map view).follow (Path.ofText field) = v ∧
    e.operators.evaluate (.map [("$get", .string field)]) (.map view) = .ok v
  computed : ∀ key, e.entryOf key (.expression (.map [("$get", .string field)])) r = .ok (some v)

end

variable {e : Engine} {r : Resource} {field : String}

theorem getD_field? :
    (r.field? (e.idAttribute r.typeName) field).getD .null = e.fieldValue r field := by
  rw [Resource.field?, fieldValue]
  cases r.attribute? field with
  | some v => rfl
  | none =>
    dsimp only
    split <;> rfl

/-- A declared field has an entry, if only null. -/
theorem fieldEntry?_of_declares (h : e.Declares r field) :
    e.fieldEntry? r field = some (e.fieldValue r field) := by
  rw [ fieldEntry?, Resource.field?, fieldValue]
  cases r.attribute? field with
  | some v => rfl
  | none =>
    dsimp only
    by_cases hid : field = e.idAttribute r.typeName ∨ field = "id"
    · rw [if_pos hid, if_pos hid]
    · rw [if_neg hid, if_neg hid]
      obtain ⟨hattribute, hname⟩ := not_or.mp hid
      obtain ⟨a, ha⟩ := Option.isSome_iff_exists.mp ((h.resolve_left hname).resolve_left hattribute)
      rw [ha]

/-! ## 2. Four readings -/

/-- **Selection, order, filters and expressions read the same field.**  Let all references of a
resource resolve, and let no relationship be stored under a name without points that stands for its
id or for an attribute that its type declares.  The entry of the selected field, the key in an order,
the value that a condition tests and the value that `$get` finds in the view are one: the stored
attribute, also where it has a name of the id, else the id under its names, else null.  The order is
one in a query for the type of the resource, or for another type that has the field as its id
attribute exactly if that type does. -/
theorem fields_readAlike (e : Engine) (hget : e.operators.get? "$get" = some (.builtIn (.access .get)))
    (r : Resource) (hrefs : e.graph.Resolves r) (field : String) (hne : field ≠ "")
    (hpoint : '.' ∉ field.toList) (hdeclared : e.Declares r field)
    (hlinks : r.links? field = none) : e.ReadsAs r field (e.fieldValue r field) := by
  obtain ⟨view, hview, hfollow⟩ := follow_view hrefs hne hpoint hlinks
  rw [getD_field?] at hfollow
  have hvalue : e.operators.evaluate (.map [("$get", .string field)]) (.map view) =
      .ok (e.fieldValue r field) := by
    rw [OperatorTable.evaluate_get hget, hfollow]
  refine ⟨fun key => ?_, fun typeName htype => ?_, fun condition => ?_,
    ⟨view, hview, hfollow, hvalue⟩, fun key => ?_⟩
  · rw [entryOf, fieldEntry?_of_declares hdeclared]
  · rw [orderValue, ← getD_field?, Resource.field?, Resource.field?]
    simp only [htype]
  · rw [accepts, hview, ok_bind, Filter.holds, hfollow]
  · rw [entryOf, hview, ok_bind, hvalue]
    rfl

/-- A team of persons whose references lead to robots.  A badge is an attribute of persons and the id
of robots, and one of the robots has an attribute named `id`. -/
def crew : Engine where
  schema := ⟨[
    ("Person", { name := "Person", attributes := [("badge", ⟨"badge", "String"⟩)] }),
    ("Robot", { name := "Robot", idAttribute := "badge" }),
    ("Team", {
      name := "Team"
      relationships := [("members", ⟨"members", "Person", .many, none⟩)] })]⟩
  graph := {
    resources := [
      ("Robot", [
        ("a", { id := "a", typeName := "Robot" }),
        ("b", { id := "b", typeName := "Robot", attributes := [("id", .int 7)] })]),
      ("Team", [("t", {
        id := "t", typeName := "Team"
        links := [("members", .many [⟨"Robot", "b"⟩, ⟨"Robot", "a"⟩])] })])]
    index := ⟨[("Robot", ["a", "b"]), ("Team", ["t"])]⟩ }

/-- The id of a robot, an attribute that shadows it, and an age that Ann does not have. -/
theorem fields_readAlike_crew :
    (∃ r, crew.graph.get? "Robot" "b" = some r ∧ crew.ReadsAs r "badge" (.string "b") ∧
      crew.ReadsAs r "id" (.int 7)) ∧
    ∃ r, office.graph.get? "Person" "ann" = some r ∧ office.graph.Resolves r ∧
      office.ReadsAs r "age" .null := by
  refine ⟨⟨_, rfl, ?_, ?_⟩, _, rfl, by decide +kernel, ?_⟩
  · exact fields_readAlike crew rfl _ (by decide +kernel) "badge" (by decide) (by decide)
      (by decide +kernel) rfl
  · exact fields_readAlike crew rfl _ (by decide +kernel) "id" (by decide) (by decide)
      (by decide +kernel) rfl
  · exact fields_readAlike office rfl _ (by decide +kernel) "age" (by decide) (by decide)
      (by decide +kernel) rfl

/-! ## 3. Readings that differ -/

/-- No relationship of the resource has the name of an attribute that it stores or of its id. -/
def NamesApart (e : Engine) (r : Resource) : Prop :=
  ∀ name ∈ Keyed.keys r.links,
    r.attribute? name = none ∧ name ≠ "id" ∧ name ≠ e.idAttribute r.typeName

instance (e : Engine) (r : Resource) : Decidable (e.NamesApart r) :=
  inferInstanceAs (Decidable (∀ name ∈ Keyed.keys r.links,
    r.attribute? name = none ∧ name ≠ "id" ∧ name ≠ e.idAttribute r.typeName))

/-- Ann has no age, but she stores a relationship under that name. -/
def ageless : Engine where
  toDialect := Dialect.people
  graph := {
    resources := [("Person", [("ann", {
      id := "ann", typeName := "Person", attributes := [("name", .string "Ann")]
      links := [("age", .one (some ⟨"Person", "ann"⟩))] })])]
    index := ⟨[("Person", ["ann"])]⟩ }

/-- The age, selected and got. -/
def ageDocument : Value := .map [
  ("select", .map [("age", .string "age"), ("same", .map [("$get", .string "age")])]),
  ("type", .string "Person")]

/-- The members by badge. -/
def crewDocument : Value := .map [
  ("select", .map [("members", .map [
    ("order", .map [("badge", .string "asc")]), ("select", .list [.string "badge"])])]),
  ("type", .string "Team")]

/-- A field can be selected as null while `$get` finds a related resource in its place, and robots
that are selected with their badges are not in the order of these if they stand in for persons. -/
theorem fields_readApart :
    (∃ r, ageless.graph.get? "Person" "ann" = some r ∧ ageless.graph.Resolves r ∧
      ageless.NamesApart r ∧ ageless.Declares r "age" ∧
      ageless.entryOf "age" (.field "age") r = .ok (some .null) ∧
      ageless.entryOf "age" (.expression (.map [("$get", .string "age")])) r ≠
        .ok (some .null)) ∧
    ageless.execute ageDocument = .ok (.list [.map [("age", .null), ("same", .map [
      ("age", .map [("id", .string "ann"), ("type", .string "Person")]), ("id", .string "ann"),
      ("name", .string "Ann")])]]) ∧
    (∃ r, crew.graph.get? "Robot" "a" = some r ∧ crew.graph.Resolves r ∧ crew.NamesApart r ∧
      crew.Declares r "badge" ∧ crew.entryOf "badge" (.field "badge") r = .ok (some (.string "a")) ∧
      crew.orderValue "Person" r "badge" = .null) ∧
    crew.execute crewDocument = .ok (.list [.map [("members", .list [
      .map [("badge", .string "b")], .map [("badge", .string "a")]])]]) := by
  refine ⟨⟨_, rfl, ?_⟩, ?_, ⟨_, rfl, ?_⟩, ?_⟩
  all_goals decide +kernel

end Engine

end GraphQuery
