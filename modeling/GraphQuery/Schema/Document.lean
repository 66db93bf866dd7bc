/-
# Schema documents

A schema document is a record with the field `resources`, a map from names to types.  Names of
types, attributes and relationships are those under which they stand.
-/
import GraphQuery.Json.Reader
import GraphQuery.Json.Record
import GraphQuery.Schema.Builder

namespace GraphQuery

/-! ## 1. Reading declarations -/

/-- The cardinality that a document names: a text, or an object with it as its only key and null as
the value. -/
def Cardinality.ofJson? : Json → Option Cardinality
  | .string "one" | .object [("one", .null)] => some one
  | .string "many" | .object [("many", .null)] => some many
  | _ => none

/-- The text of a cardinality. -/
def Cardinality.name : Cardinality → String
  | one => "one"
  | many => "many"

/-- The attribute that a document declares under a name. -/
def Attribute.ofJson? (j : Json) : Option (String → Attribute) :=
  match Json.fields? ["type"] j with
  | some [valueType] => do
    let valueType ← Json.required? Json.string? valueType
    return fun name => ⟨name, valueType⟩
  | _ => none

/-- The relationship that a document declares under a name. -/
def Relationship.ofJson? (j : Json) : Option (String → Relationship) :=
  match Json.fields? ["type", "cardinality", "inverse"] j with
  | some [target, cardinality, inverse] => do
    let target ← Json.required? Json.string? target
    let cardinality ← Json.required? Cardinality.ofJson? cardinality
    let inverse ← Json.nullable? Json.string? inverse
    return fun name => ⟨name, target, cardinality, inverse⟩
  | _ => none

/-- Declarations take the names under which they stand. -/
def attachNames {α : Type} (entries : List (String × (String → α))) : List (String × α) :=
  entries.map fun e => (e.1, e.2 e.1)

/-- The type that a document declares under a name. -/
def ResourceType.ofJson? (j : Json) : Option (String → ResourceType) :=
  match Json.fields? ["idAttribute", "attributes", "relationships"] j with
  | some [idAttribute, attributes, relationships] => do
    let idAttribute ← Json.orElse? Json.string? "id" idAttribute
    let attributes ← Json.orElse? (Json.map? Attribute.ofJson?) [] attributes
    let relationships ← Json.orElse? (Json.map? Relationship.ofJson?) [] relationships
    return fun name => ⟨name, idAttribute, attachNames attributes, attachNames relationships⟩
  | _ => none

/-! ## 2. Reading schemas -/

namespace Schema

/-- The types that a document declares, by name. -/
def declarations? (j : Json) : Option (List (String × ResourceType)) :=
  match Json.fields? ["resources"] j with
  | some [resources] => do
    let types ← Json.required? (Json.map? ResourceType.ofJson?) resources
    return attachNames types
  | _ => none

/-- The schema of declared types: each must have fields with names of their own, and together they
must build. -/
def ofDeclarations (types : List (String × ResourceType)) : Except SchemaError Schema := do
  (Keyed.values types).forM ResourceType.checkFields
  SchemaBuilder.build ⟨types⟩

/-- The schema of a document. -/
def ofJson (j : Json) : Except SchemaError Schema :=
  match declarations? j with
  | some types => ofDeclarations types
  | none => .error .invalidDocument

/-- The schema of a text.  A field of a record that is given twice is refused. -/
def ofText (text : String) : Except SchemaError Schema :=
  match Json.read? text with
  | some j => ofJson j
  | none => .error .invalidDocument

end Schema

/-! ## 3. Writing declarations -/

/-- The document of an attribute. -/
def Attribute.toJson (a : Attribute) : Json := .object [("type", .string a.valueType)]

/-- The document of a relationship; an inverse is written only if there is one. -/
def Relationship.toJson (r : Relationship) : Json :=
  let inverse := (r.inverse.map fun i => ("inverse", Json.string i)).toList
  .object ([("cardinality", .string r.cardinality.name)] ++ inverse ++ [("type", .string r.target)])

/-- The document of a type. -/
def ResourceType.toJson (t : ResourceType) : Json :=
  .object [
    ("attributes", .object (Keyed.mapValues Attribute.toJson t.attributes)),
    ("idAttribute", .string t.idAttribute),
    ("relationships", .object (Keyed.mapValues Relationship.toJson t.relationships))]

end GraphQuery
