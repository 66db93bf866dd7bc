/-
# The integrity of schemas

What the building of a schema guarantees, from the first definition of a type to the queries that are
read under the schema.  **`Schema.integrity`** puts it together: which types a builder accepts and what
a refused one leaves behind, when it builds and what the schema then holds, how documents of schemas
compare with builders, and that below the root of a query no type can be unknown.
-/
import GraphQuery.Proofs.Query.Faults

namespace GraphQuery.Schema

/-- A bear that lives in a home. -/
def bearDefinition : TypeDefinition where
  name := "Bear"
  declarations := [.attr "name" "String", .relationship ⟨"home", "Home", .one, some "residents"⟩]

/-- A home of bears. -/
def homeDefinition : TypeDefinition where
  name := "Home"
  declarations := [.idAttribute "slug", .relationship ⟨"residents", "Bear", .many, some "home"⟩]

/-- A second definition of bears. -/
def otherBearDefinition : TypeDefinition where
  name := "Bear"

/-- The schema of bears and homes. -/
def bears : Schema where
  types := [("Bear", bearDefinition.type), ("Home", homeDefinition.type)]

/-- The document of this schema. -/
def bearsDocument : Json := .object [("resources", .object [
  ("Home", .object [("idAttribute", .string "slug"), ("relationships", .object [
    ("residents", .object [("type", .string "Bear"), ("cardinality", .string "many"),
      ("inverse", .string "home")])])]),
  ("Bear", .object [("attributes", .object [("name", .object [("type", .string "String")])]),
    ("relationships", .object [("home", .object [("type", .string "Home"),
      ("cardinality", .string "one"), ("inverse", .string "residents")])])])])]

/-- A query document for a type that is not there. -/
def unicornDocument : Value := .map [("select", .string "*"), ("type", .string "Unicorn")]

/-- **The integrity of schemas.**  Of the types that are added to a builder exactly those are
accepted whose name is new and whose fields have names of their own; a refused type leaves the builder
as it was.  The builder builds exactly if the targets and inverses of the accepted types are there, and
then the schema has exactly these types, and is whole.  A document is accepted exactly if a builder
that is given its types, in any order, accepts all of them and builds, and then both give the same
schema.  Under a built schema only the root of a query can name an unknown type. -/
theorem integrity :
    (∀ definitions : List TypeDefinition, ∀ x,
      x = SchemaBuilder.run (definitions.map TypeDefinition.type) →
        (∀ t, (∃ b, x.builder.add t = .ok b) ↔
          t.name ∉ x.accepted.map ResourceType.name ∧ t.FieldsDisjoint) ∧
        (∀ t e, (x.builder.done t).1 = .error e → (x.builder.done t).2 = x.builder) ∧
        ((∃ s, x.builder.build = .ok s) ↔ ClosedTypes x.accepted) ∧
        ∀ s, x.builder.build = .ok s →
          s.Whole ∧ (x.accepted.map ResourceType.name).Nodup ∧
            ∀ name t, s.type? name = some t ↔ t ∈ x.accepted ∧ t.name = name) ∧
    (∀ j types, declarations? j = some types →
      (∀ t ∈ Keyed.values types, t.definition.type = t) ∧
        ∀ definitions : List TypeDefinition,
          (definitions.map TypeDefinition.type).Perm (Keyed.values types) →
            ∀ x, x = SchemaBuilder.run (definitions.map TypeDefinition.type) →
              ∀ s, ofJson j = .ok s ↔
                x.accepted = definitions.map TypeDefinition.type ∧ x.builder.build = .ok s) ∧
    ∀ d : Dialect, d.schema.Built ∨ (∃ j, ofJson j = .ok d.schema) →
      (∀ document name, d.normalize document = .error (.unknownType name) →
        document.get? "type" = some (.string name) ∧ d.schema.type? name = none) ∧
      ∀ typeName t key r, d.schema.type? typeName = some t → t.relationship? key = some r →
        ∀ depth name, d.readRelated r.target depth ≠ .error (.unknownType name) ∧
          ∀ v, d.readQuery (some r.target) depth v ≠ .error (.unknownType name) := by
  refine ⟨?_, ?_, ?_⟩
  · rintro definitions _ rfl
    have hsound := SchemaBuilder.run_sound (definitions.map TypeDefinition.type)
    refine ⟨fun t => hsound.exists_add_eq_ok_iff, fun t e => SchemaBuilder.done_of_error, ?_, ?_⟩
    · constructor
      · rintro ⟨s, hs⟩
        exact (hsound.build_eq_ok_iff.mp hs).1
      · intro hclosed
        exact ⟨_, hsound.build_eq_ok_iff.mpr ⟨hclosed, rfl⟩⟩
    · intro s hs
      exact ⟨Built.whole ⟨definitions, hs⟩, hsound.distinct, type?_of_build hs⟩
  · intro j types htypes
    constructor
    · exact (declaredTypes_of_declarations? htypes).type_definition
    · rintro definitions hperm _ rfl s
      exact ofJson_eq_ok_iff htypes hperm
  · intro d hbuilt
    have hwhole : d.schema.Whole := by
      rcases hbuilt with hbuilt | ⟨j, hj⟩
      · exact hbuilt.whole
      · exact (built_of_ofJson hj).whole
    have htargets := hwhole.hasTargets
    refine ⟨fun document name h => Dialect.exists_type_of_normalize htargets h, ?_⟩
    intro typeName t key r ht hr depth name
    have htarget := htargets typeName t ht key r hr
    constructor
    · intro h
      exact Bool.false_ne_true (Dialect.readRelated_isReading htarget _ h)
    · intro v h
      exact Bool.false_ne_true (Dialect.readQuery_failsOnly htargets v _ depth htarget _ h)

theorem integrity_bears :
    (SchemaBuilder.run ([bearDefinition, otherBearDefinition, homeDefinition].map
        TypeDefinition.type)).accepted = [bearDefinition.type, homeDefinition.type] ∧
      bears.Whole ∧ ofJson bearsDocument = .ok bears ∧
      ({ schema := bears } : Dialect).normalize unicornDocument = .error (.unknownType "Unicorn") ∧
      unicornDocument.get? "type" = some (.string "Unicorn") := by
  obtain ⟨hruns, hdocuments, hqueries⟩ := integrity
  have hbuild : (SchemaBuilder.run ([bearDefinition, otherBearDefinition, homeDefinition].map
      TypeDefinition.type)).builder.build = .ok bears := by decide +kernel
  have hdeclarations : declarations? bearsDocument = some bears.types := by decide +kernel
  have hall : (SchemaBuilder.run ([homeDefinition, bearDefinition].map
      TypeDefinition.type)).accepted = [homeDefinition, bearDefinition].map TypeDefinition.type := by
    decide +kernel
  have hbuild' : (SchemaBuilder.run ([homeDefinition, bearDefinition].map
      TypeDefinition.type)).builder.build = .ok bears := by decide +kernel
  -- the builder may take the types of the document in another order
  have hperm : ([homeDefinition, bearDefinition].map TypeDefinition.type).Perm
      (Keyed.values bears.types) := List.Perm.swap _ _ _
  have hload : ofJson bearsDocument = .ok bears :=
    ((hdocuments bearsDocument bears.types hdeclarations).2 _ hperm _ rfl bears).mpr
      ⟨hall, hbuild'⟩
  have hunknown : ({ schema := bears } : Dialect).normalize unicornDocument =
      .error (.unknownType "Unicorn") := by decide +kernel
  refine ⟨by decide +kernel, ((hruns _ _ rfl).2.2.2 bears hbuild).1, hload, hunknown, ?_⟩
  exact ((hqueries { schema := bears } (Or.inr ⟨_, hload⟩)).1 _ _ hunknown).1

end GraphQuery.Schema
