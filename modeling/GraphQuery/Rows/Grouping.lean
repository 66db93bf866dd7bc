/-
# Grouping rows

Rows with the same text of their key values form a part, the parts in the order of their first
rows.  Each part makes one row: of the keys and the aggregates over its rows the level selects, and
the aggregates are always there.  Without keys there is one part with all rows, even with none.

The rows of a level are filtered, ordered and sliced, and then grouped by the next level.
-/
import GraphQuery.Rows.Filtering
import GraphQuery.Rows.Arrangement

namespace GraphQuery

/-! ## 1. Partitions -/

/-- Rows with the same key values, in their order. -/
structure Part where
  key : List Value
  members : List Row
  deriving DecidableEq, Repr

/-- The value of an entry of a row; null if it is missing. -/
def Row.valueAt (row : Row) (name : String) : Value := (Keyed.get? name row).getD .null

/-- The key values of a row. -/
def Row.keyValues (names : List String) (row : Row) : List Value := names.map (Row.valueAt row)

/-- The text of the key values of a row. -/
def Row.signature (names : List String) (row : Row) : String :=
  (Value.list (Row.keyValues names row)).text

/-- A row put into the part under its signature, or into a part of its own behind the others. -/
def place (names : List String) (row : Row) : List (String × Part) → List (String × Part)
  | [] => [(Row.signature names row, ⟨Row.keyValues names row, [row]⟩)]
  | (s, p) :: rest =>
    if s = Row.signature names row then (s, { p with members := p.members ++ [row] }) :: rest
    else (s, p) :: place names row rest

/-- The parts of rows under their signatures: one row after the other is put into its part. -/
def partsBySignature (names : List String) (rows : List Row) : List (String × Part) :=
  rows.foldl (fun parts row => place names row parts) []

/-- The rows in parts. -/
def partition (names : List String) (rows : List Row) : List Part :=
  if names.isEmpty then [⟨[], rows⟩] else (partsBySignature names rows).map Prod.snd

/-! ## 2. The row of a part -/

/-- The selected entries of a group row.  A field that the context does not have is left out, and
so is a sub-query. -/
def Select.fromContext (t : OperatorTable) (context : Row) :
    List (String × Selection) → Except ExprError Row
  | [] => .ok []
  | (key, .field source) :: rest => do
    let row ← Select.fromContext t context rest
    match Keyed.get? source context with
    | some v => return (key, v) :: row
    | none => return row
  | (key, .expression e) :: rest => do
    let v ← t.evaluate e (.map context)
    let row ← Select.fromContext t context rest
    return (key, v) :: row
  | (_, .subquery _) :: rest => Select.fromContext t context rest

namespace GroupOf

variable (t : OperatorTable) (g : Group)

/-- The aggregates over rows. -/
def aggregate (members : List Row) : Except ExprError Row :=
  g.aggregates.mapM fun e => do
    let v ← t.evaluateRequired e.2 (.list (members.map .map))
    return (e.1, v)

/-- What the selection of a level reads: keys, over them the aggregates. -/
def context (p : Part) (aggregates : Row) : Row :=
  Keyed.overlay (Keyed.ofList (g.keys.zip p.key)) aggregates

/-- The row of a part. -/
def rowOf (p : Part) : Except ExprError Row := do
  let aggregates ← g.aggregate t p.members
  let selected ← Select.fromContext t (g.context p aggregates) g.select
  return Keyed.overlay selected aggregates

/-- The rows of the parts that pass the filter of the level. -/
def rowsOf : List Part → Except ExprError (List Row)
  | [] => .ok []
  | p :: rest => do
    let row ← g.rowOf t p
    let kept ← Filter.passes t (.map row) g.filter
    let rows ← rowsOf rest
    return if kept then row :: rows else rows

/-! ## 3. Levels -/

/-- The rows of one level. -/
def level (rows : List Row) : Except QueryError (List Row) := do
  let made ← QueryError.ofExpr (g.rowsOf t (partition g.keys rows))
  arrange Row.valueAt g.order g.slice made

end GroupOf

/-- The rows of all levels, from the outermost. -/
def groupRows (t : OperatorTable) : List Group → List Row → Except QueryError (List Row)
  | [], rows => .ok rows
  | g :: inner, rows => do
    let made ← g.level t rows
    groupRows t inner made

end GraphQuery
