/-
# Schemas

A schema declares types of resources: for each the name of its id attribute, its attributes, and its
relationships to other types.  A field name of a type means its id, an attribute or a relationship,
in this order, or nothing.
-/
import GraphQuery.Keyed

namespace GraphQuery

/-! ## 1. Declarations -/

/-- An attribute, with the name of the type of its values. -/
structure Attribute where
  name : String
  valueType : String
  deriving DecidableEq, Repr

/-- How many resources a relationship points at. -/
inductive Cardinality where
  | one
  | many
  deriving DecidableEq, Repr

/-- A relationship to the resources of a type.  It may name a relationship of that type as its
inverse. -/
structure Relationship where
  name : String
  target : String
  cardinality : Cardinality
  inverse : Option String := none
  deriving DecidableEq, Repr

/-- The relationship points at any number of resources. -/
def Relationship.isMany (r : Relationship) : Bool := r.cardinality == .many

/-- A type of resources. -/
structure ResourceType where
  name : String
  idAttribute : String := "id"
  attributes : List (String × Attribute) := []
  relationships : List (String × Relationship) := []
  deriving DecidableEq, Repr

/-- What a field name means on a type. -/
inductive FieldKind where
  | id
  | attr (a : Attribute)
  | relationship (r : Relationship)
  | unknown
  deriving DecidableEq, Repr

namespace FieldKind

/-- The field is the id or an attribute. -/
def isAttribute : FieldKind → Bool
  | id | attr _ => true
  | _ => false

/-- The field is not declared. -/
def isUnknown : FieldKind → Bool
  | unknown => true
  | _ => false

end FieldKind

namespace ResourceType

/-- The attribute of a name. -/
def attribute? (t : ResourceType) (name : String) : Option Attribute :=
  Keyed.get? name t.attributes

/-- The relationship of a name. -/
def relationship? (t : ResourceType) (name : String) : Option Relationship :=
  Keyed.get? name t.relationships

/-- The names of the attributes, in order. -/
def attributeNames (t : ResourceType) : List String := Keyed.keys t.attributes

/-- The name stands for the id: that of the id attribute, or `id`. -/
def isIdName (t : ResourceType) (name : String) : Bool := name == t.idAttribute || name == "id"

/-- What a field name means. -/
def fieldKind (t : ResourceType) (name : String) : FieldKind :=
  if t.isIdName name then .id
  else
    match t.attribute? name with
    | some a => .attr a
    | none =>
      match t.relationship? name with
      | some r => .relationship r
      | none => .unknown

/-- The type with an attribute added; one of the same name is replaced. -/
def withAttribute (t : ResourceType) (name valueType : String) : ResourceType :=
  { t with attributes := Keyed.insert name ⟨name, valueType⟩ t.attributes }

/-- The type with a relationship added; one of the same name is replaced. -/
def withRelationship (t : ResourceType) (r : Relationship) : ResourceType :=
  { t with relationships := Keyed.insert r.name r t.relationships }

end ResourceType

/-! ## 2. Schemas -/

/-- The types that are declared, by name. -/
structure Schema where
  types : List (String × ResourceType)
  deriving DecidableEq, Repr

namespace Schema

/-- The type of a name. -/
def type? (s : Schema) (name : String) : Option ResourceType := Keyed.get? name s.types

/-- What a field name means on a type; on an unknown type, nothing. -/
def fieldKind (s : Schema) (typeName field : String) : FieldKind :=
  match s.type? typeName with
  | some t => t.fieldKind field
  | none => .unknown

/-- The relationship of a name on a type. -/
def relationship? (s : Schema) (typeName name : String) : Option Relationship :=
  (s.type? typeName).bind fun t => t.relationship? name

/-- The name of the id attribute of a type. -/
def idAttribute? (s : Schema) (typeName : String) : Option String :=
  (s.type? typeName).map fun t => t.idAttribute

end Schema

end GraphQuery
