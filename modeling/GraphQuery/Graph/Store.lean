/-
# Graphs

A graph stores resources under their type and id.  An index remembers for each type the ids in the
order in which they came, so that a scan of a type has a fixed order.  Two resources never share
type and id.
-/
import GraphQuery.Graph.Resource

namespace GraphQuery

/-! ## 1. The index -/

/-- The ids of each type, in the order in which they were added. -/
structure TypeIndex where
  entries : List (String × List String) := []
  deriving DecidableEq, Repr

namespace TypeIndex

/-- The ids of a type. -/
def ids (x : TypeIndex) (typeName : String) : List String :=
  (Keyed.get? typeName x.entries).getD []

/-- An id is added behind those of its type. -/
def insert (x : TypeIndex) (typeName id : String) : TypeIndex :=
  ⟨Keyed.insert typeName (x.ids typeName ++ [id]) x.entries⟩

/-- Only the type of the new id changes. -/
theorem ids_insert (x : TypeIndex) (typeName id t : String) :
    (x.insert typeName id).ids t = if typeName = t then x.ids typeName ++ [id] else x.ids t := by
  unfold insert ids
  rw [Keyed.get?_insert]
  split <;> rfl

end TypeIndex

/-! ## 2. Graphs -/

/-- Why resources do not make a graph. -/
inductive GraphError where
  | typeMismatch (id declared expected : String)
  | idMismatch (typeName id key : String)
  | duplicateResource (typeName id : String)
  | invalidDocument
  deriving DecidableEq, Repr

/-- The wording of an error. -/
def GraphError.message : GraphError → String
  | typeMismatch id declared expected =>
    "Resource " ++ id ++ " declares type " ++ declared ++ " but is stored under " ++ expected
  | idMismatch typeName id key =>
    "Resource " ++ id ++ " of type " ++ typeName ++ " is stored under key " ++ key
  | duplicateResource typeName id => "Duplicate resource: " ++ typeName ++ ":" ++ id
  | invalidDocument => "Invalid document"

/-- Resources by type and id, and the order in which they came. -/
structure Graph where
  resources : List (String × List (String × Resource)) := []
  index : TypeIndex := {}
  deriving DecidableEq, Repr

namespace Graph

/-- The graph without resources. -/
def empty : Graph := {}

/-- The resources of a type, by id. -/
def ofType (g : Graph) (typeName : String) : List (String × Resource) :=
  (Keyed.get? typeName g.resources).getD []

/-- The resource with a type and an id. -/
def get? (g : Graph) (typeName id : String) : Option Resource := Keyed.get? id (g.ofType typeName)

/-- The resource that a reference points at. -/
def resolve? (g : Graph) (r : Ref) : Option Resource := g.get? r.typeName r.id

/-- The resources of a type, in the order in which they came. -/
def scan (g : Graph) (typeName : String) : List Resource :=
  (g.index.ids typeName).filterMap (g.get? typeName)

/-- The graph with a map of resources for a type, an empty one if there is none. -/
def withType (g : Graph) (typeName : String) : Graph :=
  { g with resources := Keyed.insertNew typeName [] g.resources }

/-- A call that adds a resource in place, unless there is one with its type and id: its outcome, and
the graph as the call leaves it.  The type gets its map before it is asked whether the id is taken. -/
def put (g : Graph) (r : Resource) : Except GraphError Unit × Graph :=
  let g := g.withType r.typeName
  let byId := g.ofType r.typeName
  if Keyed.contains r.id byId then (.error (.duplicateResource r.typeName r.id), g)
  else
    let index := g.index.insert r.typeName r.id
    (.ok (), ⟨Keyed.insert r.typeName (Keyed.insert r.id r byId) g.resources, index⟩)

/-- The graph with a resource added, if the call succeeds. -/
def insert (g : Graph) (r : Resource) : Except GraphError Graph :=
  (g.put r).1.map fun _ => (g.put r).2

end Graph

end GraphQuery
