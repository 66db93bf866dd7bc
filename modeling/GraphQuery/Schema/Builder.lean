/-
# Building schemas

Types are added one after the other; a type of a name that is taken, or with a name that is both
attribute and relationship, is refused.  When the schema is built, every relationship must have its
target among the types, and a declared inverse must be a relationship of the target.
-/
import GraphQuery.Schema.Basic

namespace GraphQuery

/-- Why a schema is refused. -/
inductive SchemaError where
  | duplicateType (name : String)
  | duplicateField (typeName field : String)
  | unknownTarget (typeName relationship target : String)
  | unknownInverse (typeName relationship target inverse : String)
  | invalidDocument
  deriving DecidableEq, Repr

/-- The wording of an error. -/
def SchemaError.message : SchemaError → String
  | duplicateType name => "Duplicate type name: " ++ name
  | duplicateField typeName field =>
    "Field " ++ field ++ " on type " ++ typeName ++
      " is declared as both attribute and relationship"
  | unknownTarget typeName relationship target =>
    "Relationship " ++ relationship ++ " on type " ++ typeName ++ " targets unknown type " ++ target
  | unknownInverse typeName relationship target inverse =>
    "Relationship " ++ relationship ++ " on type " ++ typeName ++ " names inverse " ++ inverse ++
      ", which is not a relationship on " ++ target
  | invalidDocument => "Invalid schema document"

/-! ## 1. Checks -/

namespace ResourceType

/-- The first name that is both an attribute and a relationship. -/
def sharedName? (t : ResourceType) : Option String :=
  (Keyed.keys t.relationships).find? fun name => Keyed.contains name t.attributes

/-- Attributes and relationships have names of their own. -/
def checkFields (t : ResourceType) : Except SchemaError Unit :=
  match t.sharedName? with
  | some field => .error (.duplicateField t.name field)
  | none => .ok ()

end ResourceType

/-- A relationship of a type has its target among the types, and its inverse there. -/
def Relationship.check (types : List (String × ResourceType)) (owner : ResourceType)
    (r : Relationship) : Except SchemaError Unit :=
  match Keyed.get? r.target types with
  | none => .error (.unknownTarget owner.name r.name r.target)
  | some target =>
    match r.inverse with
    | none => .ok ()
    | some inverse =>
      match target.relationship? inverse with
      | some _ => .ok ()
      | none => .error (.unknownInverse owner.name r.name r.target inverse)

/-- All relationships of a type are in order. -/
def ResourceType.checkRelationships (types : List (String × ResourceType)) (t : ResourceType) :
    Except SchemaError Unit :=
  (Keyed.values t.relationships).forM fun r => r.check types t

/-! ## 2. The builder -/

/-- The types added so far, by name. -/
structure SchemaBuilder where
  types : List (String × ResourceType) := []
  deriving DecidableEq, Repr

namespace SchemaBuilder

/-- A call that adds a type in place, unless there is one of its name or its fields share names: its
outcome, and the builder as the call leaves it. -/
def done (b : SchemaBuilder) (t : ResourceType) : Except SchemaError Unit × SchemaBuilder :=
  if Keyed.contains t.name b.types then (.error (.duplicateType t.name), b)
  else
    match t.checkFields with
    | .error e => (.error e, b)
    | .ok () => (.ok (), ⟨Keyed.insert t.name t b.types⟩)

/-- The builder with a type added, if the call succeeds. -/
def add (b : SchemaBuilder) (t : ResourceType) : Except SchemaError SchemaBuilder :=
  (b.done t).1.map fun _ => (b.done t).2

/-- The schema of the types added, if all relationships are in order.  Of several faults any one may be
reported, since a builder does not keep its types in order; here they are looked at in the order of
their names, and the first fault is reported. -/
def build (b : SchemaBuilder) : Except SchemaError Schema := do
  (Keyed.values b.types).forM fun t => t.checkRelationships b.types
  return ⟨b.types⟩

end SchemaBuilder

end GraphQuery
