/-
# Documents of resources and graphs

A graph document is a map from types to maps from ids to resources.  A resource there may leave out
its type and id; given, they must agree with the keys under which it stands.  Resources are added
in the order of types, and of ids within a type.

An id is a text or a whole number, which is taken in decimal digits.
-/
import GraphQuery.Graph.Store
import GraphQuery.Json.Reader
import GraphQuery.Json.Record
import GraphQuery.Value.Json

namespace GraphQuery

/-! ## 1. References -/

/-- The id that a document gives. -/
def idOfJson? : Json → Option String
  | .string s => some s
  | .integer i => if FitsInt64 i then some (toString i) else none
  | _ => none

/-- The reference that a document gives. -/
def Ref.ofJson? (j : Json) : Option Ref :=
  match Json.fields? ["type", "id"] j with
  | some [typeName, id] => do
    let typeName ← Json.required? Json.string? typeName
    let id ← Json.required? idOfJson? id
    return ⟨typeName, id⟩
  | _ => none

/-- The document of a reference. -/
def Ref.toJson (r : Ref) : Json := .object [("id", .string r.id), ("type", .string r.typeName)]

/-- The references that a document gives: a list of them if it can be read as one, else one or
none. -/
def Links.ofJson? (j : Json) : Option Links :=
  match j.items?.bind fun items => items.mapM Ref.ofJson? with
  | some refs => some (many refs)
  | none =>
    match j with
    | .null => some (one none)
    | j => (Ref.ofJson? j).map fun r => one (some r)

/-! ## 2. Resources -/

/-- The attributes that a document gives. -/
def attributesOfJson? : Json → Option Row := Json.map? fun j => some (Value.ofJson j)

/-- The references by relationship that a document gives. -/
def linksOfJson? : Json → Option (List (String × Links)) := Json.map? Links.ofJson?

/-- The resource that a document gives. -/
def Resource.ofJson? (j : Json) : Option Resource :=
  match Json.fields? ["id", "type", "attributes", "relationships"] j with
  | some [id, typeName, attributes, links] => do
    let id ← Json.required? idOfJson? id
    let typeName ← Json.required? Json.string? typeName
    let attributes ← Json.orElse? attributesOfJson? [] attributes
    let links ← Json.orElse? linksOfJson? [] links
    return ⟨id, typeName, attributes, links⟩
  | _ => none

/-! ## 3. Graphs -/

/-- A resource as it stands in a graph document. -/
structure StoredResource where
  id : Option Value
  typeName : Option String
  attributes : Row
  links : List (String × Links)
  deriving DecidableEq, Repr

namespace StoredResource

/-- The resource that a document gives, its id any value. -/
def ofJson? (j : Json) : Option StoredResource :=
  match Json.fields? ["id", "type", "attributes", "relationships"] j with
  | some [id, typeName, attributes, links] => do
    let id ← Json.nullable? (fun j => some (Value.ofJson j)) id
    let typeName ← Json.nullable? Json.string? typeName
    let attributes ← Json.orElse? attributesOfJson? [] attributes
    let links ← Json.orElse? linksOfJson? [] links
    return ⟨id, typeName, attributes, links⟩
  | _ => none

/-- The id that is meant: that of a value of another form is its text. -/
def idText (r : StoredResource) (key : String) : String :=
  match r.id with
  | none => key
  | some v => v.id?.getD v.text

/-- The resource stored under a type and a key, with which it must agree. -/
def toResource (r : StoredResource) (typeName key : String) : Except GraphError Resource := do
  match r.typeName with
  | some declared =>
    if declared ≠ typeName then .error (.typeMismatch key declared typeName)
  | none => pure ()
  let id := r.idText key
  if id ≠ key then .error (.idMismatch typeName id key)
  else return ⟨id, typeName, r.attributes, r.links⟩

end StoredResource

namespace Graph

/-- The resources of a graph document, by type and key. -/
def stored? : Json → Option (List (String × List (String × StoredResource))) :=
  Json.map? (Json.map? StoredResource.ofJson?)

/-- The resources under one type are added to a graph. -/
def insertStored (g : Graph) (typeName : String) (byKey : List (String × StoredResource)) :
    Except GraphError Graph :=
  byKey.foldlM (fun g e => do g.insert (← e.2.toResource typeName e.1)) g

/-- The graph of the resources in a document. -/
def ofStored (types : List (String × List (String × StoredResource))) : Except GraphError Graph :=
  types.foldlM (fun g e => g.insertStored e.1 e.2) empty

/-- The graph of a document. -/
def ofJson (j : Json) : Except GraphError Graph :=
  match stored? j with
  | some types => ofStored types
  | none => .error .invalidDocument

/-- The graph of a text.  Where a key stands twice in it, the last counts. -/
def ofText (text : String) : Except GraphError Graph :=
  match Json.parse? text with
  | some j => ofJson j
  | none => .error .invalidDocument

end Graph

end GraphQuery
