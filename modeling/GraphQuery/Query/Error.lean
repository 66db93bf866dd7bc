/-
# What can go wrong with queries

A query is refused when it is read, or when it is checked against the schema; these are faults of
the caller.  While it runs, an expression may fail, and so may a reference that points at nothing,
which is a fault of the data.
-/
import GraphQuery.Graph.Resource
import GraphQuery.Expression.Error
import GraphQuery.Value.Json

namespace GraphQuery

/-! ## 1. The parts of a query document with a fixed set of keys -/

/-- An object in a query document that has a fixed set of keys. -/
inductive Section where
  | query
  | group
  | slice
  deriving DecidableEq, Repr

namespace Section

/-- The name of a section. -/
def name : Section → String
  | query => "query"
  | group => "group"
  | slice => "slice"

/-- The keys of a section. -/
def keys : Section → List String
  | query => ["type", "id", "select", "where", "order", "group", "slice", "limit", "offset"]
  | group =>
    ["by", "select", "aggregates", "where", "order", "slice", "limit", "offset", "group"]
  | slice => ["limit", "offset", "before", "after"]

end Section

/-! ## 2. Faults of form -/

/-- What is wrong with the form of a query. -/
inductive QueryFault where
  | queryExpected
  | unexpectedKey (key : String) (within : Section)
  | typeConflict (found target : String)
  | typeNotText (found : Kind)
  | idBelowRoot
  | invalidId (found : Value)
  | groupWithId
  | selectExpected (found : Kind)
  | selectItemExpected (found : Kind)
  | selectionExpected (key : String) (found : Kind)
  | neitherSelection (key typeName : String)
  | renamedRelationship (source key : String)
  | filterExpected (found : Value)
  | filtersExpected (tag : String)
  | groupExpected
  | groupKeysMissing
  | groupKeysExpected (found : Kind)
  | groupKeyNotText
  | groupItemExpected (found : Kind)
  | aggregatesExpected (found : Kind)
  | emptyOrder
  | orderKeyExpected (found : Kind)
  | orderEntryCount
  | directionExpected (field : String) (found : Value)
  | sliceTwice
  | sliceExpected (found : Kind)
  | countExpected (key : String) (found : Value)
  | subqueryTarget (key target found : String)
  | groupedToOne (key : String)
  deriving DecidableEq, Repr

/-- The wording of what is wrong with the form of a query. -/
def QueryFault.message : QueryFault → String
  | queryExpected => "a query must be an object"
  | unexpectedKey key within => "unexpected key " ++ key ++ " in " ++ within.name
  | typeConflict found target =>
    "sub-query type " ++ found ++ " does not match relationship target " ++ target
  | typeNotText k => "`type` must be a string, found " ++ k.name
  | idBelowRoot => "`id` is only allowed on the root query"
  | invalidId v => "invalid id: " ++ v.text
  | groupWithId => "`group` cannot be combined with `id`"
  | selectExpected k => "`select` must be a list or an object, found " ++ k.name
  | selectItemExpected k => "select items must be names or objects, found " ++ k.name
  | selectionExpected key k =>
    "select entry " ++ key ++ " must be a name, an expression or a sub-query, found " ++ k.name
  | neitherSelection key typeName =>
    "select entry " ++ key ++ " on " ++ typeName ++ " is neither an expression nor a relationship"
  | renamedRelationship source key =>
    "relationship " ++ source ++ " cannot be selected under another name (" ++ key ++ ")"
  | filterExpected v => "`where` must be an object, found " ++ v.text
  | filtersExpected tag => tag ++ " takes a list of where clauses"
  | groupExpected => "`group` must be an object"
  | groupKeysMissing => "`group` requires `by`"
  | groupKeysExpected k => "`group.by` must be a name or a list of names, found " ++ k.name
  | groupKeyNotText => "`group.by` entries must be names"
  | groupItemExpected k => "group select items must be names or objects, found " ++ k.name
  | aggregatesExpected k => "`group.aggregates` must be an object, found " ++ k.name
  | emptyOrder => "`order` must not be empty"
  | orderKeyExpected k => "order entries must be names or objects, found " ++ k.name
  | orderEntryCount => "each order entry must have exactly one key"
  | directionExpected field v =>
    "order direction for " ++ field ++ " must be \"asc\" or \"desc\", found " ++ v.text
  | sliceTwice => "use either `slice` or top-level `limit`/`offset`, not both"
  | sliceExpected k => "`slice` must be an object, found " ++ k.name
  | countExpected key v => "`" ++ key ++ "` must be a non-negative integer, found " ++ v.text
  | subqueryTarget key target found =>
    "sub-query " ++ key ++ " must query " ++ target ++ ", not " ++ found
  | groupedToOne key => "to-one relationship " ++ key ++ " cannot be grouped"

/-- What is wrong with an anchor; `leading` are the sort keys that it should name. -/
inductive AnchorFault where
  | mapExpected (key : String) (found : Value)
  | notALeadingRun (leading : List String)
  | outsidePrefix (key : String) (leading : List String)
  deriving DecidableEq, Repr

/-- The wording of what is wrong with an anchor. -/
def AnchorFault.message : AnchorFault → String
  | mapExpected key v => "`" ++ key ++ "` must map order keys to values, found " ++ v.text
  | notALeadingRun leading =>
    "anchor must name a leading run of the order keys (" ++ String.intercalate ", " leading ++ ")"
  | outsidePrefix key leading =>
    "anchor key " ++ key ++ " is not part of the order prefix (" ++
      String.intercalate ", " leading ++ ")"

/-! ## 3. Errors -/

/-- Why a query has no result. -/
inductive QueryError where
  | missingType
  | missingSelect (typeName : String)
  | unknownType (name : String)
  | unknownField (within field : String)
  | invalidQuery (fault : QueryFault)
  | invalidAnchor (fault : AnchorFault)
  | anchorWithoutOrder
  | tooDeep (limit : Nat)
  | danglingReference (source : Ref) (relationship : String) (target : Ref)
  | expression (e : ExprError)
  deriving DecidableEq, Repr

namespace QueryError

/-- The wording of an error. -/
def message : QueryError → String
  | missingType => "Query is missing its root `type`"
  | missingSelect typeName => "Query on type " ++ typeName ++ " is missing `select`"
  | unknownType name => "Unknown type: " ++ name
  | unknownField within field => "Unknown field: " ++ field ++ " on " ++ within
  | invalidQuery fault => "Invalid query: " ++ fault.message
  | invalidAnchor fault => "Invalid cursor anchor: " ++ fault.message
  | anchorWithoutOrder => "Cursor anchors `before`/`after` require an `order`"
  | tooDeep limit => "Query nesting exceeds the maximum depth of " ++ toString limit
  | danglingReference source relationship target =>
    "Dangling reference: " ++ source.text ++ "." ++ relationship ++ " points at missing " ++
      target.text
  | expression e => e.message

/-- The program stops; nothing is reported. -/
def isStop : QueryError → Bool
  | expression e => e.isStop
  | _ => false

/-- The error lies in the query, not in the data. -/
def isCaller : QueryError → Bool
  | danglingReference _ _ _ => false
  | expression e => !e.isStop
  | _ => true

/-- A computation with expressions as part of a query. -/
def ofExpr {α : Type} : Except ExprError α → Except QueryError α
  | .ok a => .ok a
  | .error e => .error (.expression e)

/-- The program stops in the computation. -/
def stops {α : Type} : Except QueryError α → Bool
  | .ok _ => false
  | .error e => e.isStop

end QueryError

end GraphQuery
