/-
# Resources

A resource is a record of a type with an id, attributes, and references to other resources under
the names of relationships.  A reference names its target by type and id; the target is never part
of the resource.
-/
import GraphQuery.Value.Basic

namespace GraphQuery

/-- A reference to a resource. -/
structure Ref where
  typeName : String
  id : String
  deriving DecidableEq, Repr

namespace Ref

/-- The short form of a reference. -/
def text (r : Ref) : String := r.typeName ++ ":" ++ r.id

/-- A reference as a value. -/
def toValue (r : Ref) : Value := .map [("id", .string r.id), ("type", .string r.typeName)]

end Ref

/-- What a resource stores under the name of a relationship. -/
inductive Links where
  | many (refs : List Ref)
  | one (ref : Option Ref)
  deriving DecidableEq, Repr

namespace Links

/-- The references, in order. -/
def refs : Links → List Ref
  | many refs => refs
  | one ref => ref.toList

/-- There may be any number of references. -/
def isMany : Links → Bool
  | many _ => true
  | one _ => false

/-- The references as a value. -/
def toValue : Links → Value
  | many refs => .list (refs.map Ref.toValue)
  | one (some ref) => ref.toValue
  | one none => .null

end Links

/-- A resource. -/
structure Resource where
  id : String
  typeName : String
  attributes : Row := []
  links : List (String × Links) := []
  deriving DecidableEq, Repr

namespace Resource

/-- The value of an attribute. -/
def attribute? (r : Resource) (name : String) : Option Value := Keyed.get? name r.attributes

/-- What is stored under the name of a relationship. -/
def links? (r : Resource) (name : String) : Option Links := Keyed.get? name r.links

/-- The reference to the resource itself. -/
def ref (r : Resource) : Ref := ⟨r.typeName, r.id⟩

end Resource

end GraphQuery
