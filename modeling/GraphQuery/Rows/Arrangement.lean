/-
# Ordering and slicing

Items are sorted by the tuples of their key values, the first difference counting in the direction
of its key.  Sorting is stable, so without keys the items keep their order.  Where the tuples do not
compare like an order, and there are more than a few items, the program stops.

An anchor is the tuple of the leading keys at some place of the order: `after` keeps what lies
strictly behind it, `before` what lies strictly in front.  Of what is left the slice takes a window:
it is counted from the start, but from the end if there is only the anchor `before`.
-/
import GraphQuery.Query.Error
import GraphQuery.Query.Basic
import GraphQuery.Value.Comparison
import GraphQuery.Sorting

namespace GraphQuery

/-! ## 1. Anchors that fit an order -/

/-- The fields of the first sort keys, as many as an anchor has entries. -/
def leadingFields (order : List OrderKey) (anchor : Anchor) : List String :=
  (order.take anchor.length).map OrderKey.field

/-- An anchor names one or more of the first sort keys and no others. -/
def checkAnchor (order : List OrderKey) (anchor : Anchor) : Except QueryError Unit :=
  if anchor.isEmpty || order.length < anchor.length then
    .error (.invalidAnchor (.notALeadingRun (order.map OrderKey.field)))
  else
    match (Keyed.keys anchor).find? fun key => !(leadingFields order anchor).contains key with
    | some key => .error (.invalidAnchor (.outsidePrefix key (leadingFields order anchor)))
    | none => .ok ()

/-- A slice has anchors only with an order, and they fit it. -/
def Slice.check (order : List OrderKey) (s : Slice) : Except QueryError Unit :=
  if !s.hasAnchor then .ok ()
  else if order.isEmpty then .error .anchorWithoutOrder
  else s.anchors.forM (checkAnchor order)

/-! ## 2. Tuples of key values -/

/-- The order of tuples: the first difference decides.  Of tuples of different length only the
common part is compared. -/
def compareTuples : List OrderKey → List Value → List Value → Ordering
  | k :: keys, a :: as, b :: bs => (k.direction.orient (a.cmp b)).then (compareTuples keys as bs)
  | _, _, _ => .eq

/-- The tuple of an anchor, in the order of the sort keys. -/
def anchorTuple (order : List OrderKey) (anchor : Anchor) : List Value :=
  (leadingFields order anchor).map fun field => (Keyed.get? field anchor).getD .null

variable {α : Type} (key : α → String → Value)

/-- The tuple of an item. -/
def tupleOf (order : List OrderKey) (item : α) : List Value :=
  order.map fun k => key item k.field

/-- Items are compared by their tuples. -/
def compareItems (order : List OrderKey) (a b : α) : Ordering :=
  compareTuples order (tupleOf key order a) (tupleOf key order b)

/-- The items in order. -/
def sortItems (order : List OrderKey) (items : List α) : List α :=
  Sorting.stable (compareItems key order) items

/-- It is settled in which order the items come. -/
def isSettled (order : List OrderKey) (items : List α) : Bool :=
  Sorting.settled (compareItems key order) items

/-- The items in order.  The program stops if it is not settled. -/
def sortSettled (order : List OrderKey) (items : List α) : Except QueryError (List α) :=
  if isSettled key order items then .ok (sortItems key order items)
  else .error (.expression .stopped)

/-! ## 3. Slices -/

namespace Slice

/-- The tuple lies strictly behind `after` and strictly in front of `before`. -/
def admits (s : Slice) (order : List OrderKey) (tuple : List Value) : Bool :=
  (s.after.all fun a => compareTuples order tuple (anchorTuple order a) == .gt) &&
    s.before.all fun b => compareTuples order tuple (anchorTuple order b) == .lt

/-- The window among a number of items, as the places where it starts and stops. -/
def bounds (s : Slice) (length : Nat) : Nat × Nat :=
  let offset := (s.offset.map UInt64.toNat).getD 0
  if s.before.isSome && s.after.isNone then
    let stop := length - offset
    match s.limit with
    | none => (0, stop)
    | some n => (stop - n.toNat, stop)
  else
    let start := min offset length
    match s.limit with
    | none => (start, length)
    | some n => (start, min (start + n.toNat) length)

/-- The items in the window. -/
def cut (s : Slice) (items : List α) : List α :=
  let (start, stop) := s.bounds items.length
  (items.drop start).take (stop - start)

end Slice

/-- The items as a sort orders them, between the anchors, and in the window. -/
def arrangeBy (sort : List α → Except QueryError (List α)) (order : List OrderKey) (slice : Slice)
    (items : List α) : Except QueryError (List α) := do
  slice.check order
  let sorted ← sort items
  return slice.cut (sorted.filter fun item => slice.admits order (tupleOf key order item))

/-- The items in order, between the anchors, and in the window. -/
def arrange (order : List OrderKey) : Slice → List α → Except QueryError (List α) :=
  arrangeBy key (sortSettled key order) order

end GraphQuery
