/-
# Queries

A query asks for resources of one type: all of them or one by its id, those that pass a filter, in
an order, a slice of them, and of each what the selection names.  A selection may resolve a
relationship with a query of its own.  The resources may be grouped; the rows of a group level may
be grouped again.

`QueryOf σ` and `GroupOf σ` leave open what is selected, so that `Selection` can be defined through
them: `Query` is `QueryOf Selection`.

The group levels of a query are a list, the outermost first.  The entries of a selection are in key
order (`Keyed.Sorted`).
-/
import GraphQuery.Value.Basic

namespace GraphQuery

/-! ## 1. Filters -/

/-- A test of the value at a path. -/
inductive Condition where
  | equals (expected : Value)
  | expression (e : Value)
  deriving DecidableEq, Repr

/-- A test of a row. -/
inductive Filter where
  | conjunction (parts : List Filter)
  | disjunction (parts : List Filter)
  | negation (part : Filter)
  | field (path : String) (condition : Condition)
  | expression (e : Value)
  deriving Repr, Inhabited

namespace Filter

mutual
/-- Two filters are the same. -/
def same : Filter → Filter → Bool
  | conjunction a, conjunction b => sameParts a b
  | disjunction a, disjunction b => sameParts a b
  | negation a, negation b => same a b
  | field p c, field q d => decide (p = q ∧ c = d)
  | expression a, expression b => decide (a = b)
  | _, _ => false
/-- Part by part. -/
def sameParts : List Filter → List Filter → Bool
  | [], [] => true
  | a :: as, b :: bs => same a b && sameParts as bs
  | _, _ => false
end

mutual
theorem same_iff : (a b : Filter) → (same a b = true ↔ a = b)
  | conjunction a, b => by cases b <;> simp [same, sameParts_iff a]
  | disjunction a, b => by cases b <;> simp [same, sameParts_iff a]
  | negation a, b => by cases b <;> simp [same, same_iff a]
  | field p c, b => by cases b <;> simp [same]
  | expression e, b => by cases b <;> simp [same]
theorem sameParts_iff : (a b : List Filter) → (sameParts a b = true ↔ a = b)
  | [], b => by cases b <;> simp [sameParts]
  | f :: as, b => by
    cases b with
    | nil => simp [sameParts]
    | cons g bs => simp [sameParts, same_iff f g, sameParts_iff as bs]
end

instance : DecidableEq Filter := fun a b => decidable_of_iff _ (same_iff a b)

end Filter

/-! ## 2. Order and slice -/

/-- The direction of a sort key. -/
inductive Direction where
  | asc
  | desc
  deriving DecidableEq, Repr

namespace Direction

/-- The name of a direction. -/
def name : Direction → String
  | asc => "asc"
  | desc => "desc"

/-- The direction of a name. -/
def ofName? : String → Option Direction
  | "asc" => some asc
  | "desc" => some desc
  | _ => none

/-- A comparison, turned round if the direction is descending. -/
def orient : Direction → Ordering → Ordering
  | asc, o => o
  | desc, o => o.swap

end Direction

/-- One sort key. -/
structure OrderKey where
  field : String
  direction : Direction := .asc
  deriving DecidableEq, Repr

/-- The values of the leading sort keys at one place of an order. -/
abbrev Anchor := Row

/-- A window over ordered rows: those between two anchors, and of these a limited number from an
offset on. -/
structure Slice where
  limit : Option UInt64 := none
  offset : Option UInt64 := none
  before : Option Anchor := none
  after : Option Anchor := none
  deriving DecidableEq, Repr

namespace Slice

/-- The window has an anchor. -/
def hasAnchor (s : Slice) : Bool := s.before.isSome || s.after.isSome

/-- The window keeps every row. -/
def isUnbounded (s : Slice) : Bool := s.limit.isNone && s.offset.isNone && !s.hasAnchor

/-- The anchors, `before` first. -/
def anchors (s : Slice) : List Anchor := s.before.toList ++ s.after.toList

end Slice

/-! ## 3. Groups and queries -/

/-- A group level: rows with the same values of `keys` become one row, made by `select` and
`aggregates`; the new rows are filtered, ordered and sliced. -/
structure GroupOf (σ : Type) where
  keys : List String
  select : List (String × σ)
  aggregates : Row := []
  filter : Option Filter := none
  order : List OrderKey := []
  slice : Slice := {}
  deriving Repr

/-- A query. -/
structure QueryOf (σ : Type) where
  typeName : String
  id : Option String := none
  select : List (String × σ) := []
  filter : Option Filter := none
  order : List OrderKey := []
  slice : Slice := {}
  groups : List (GroupOf σ) := []
  deriving Repr

/-- How one entry of a row is made: from a field, by an expression, or by a query for the
resources under the relationship of the entry's name. -/
inductive Selection where
  | field (source : String)
  | expression (e : Value)
  | subquery (q : QueryOf Selection)
  deriving Repr, Inhabited

/-- The entries of a row and how they are made. -/
abbrev Select := List (String × Selection)

/-- A group level of a query. -/
abbrev Group := GroupOf Selection

/-- A query with all of its parts. -/
abbrev Query := QueryOf Selection

/-- The names of the entries that a row of the level can have: those selected, then the
aggregates. -/
def GroupOf.outputs {σ : Type} (g : GroupOf σ) : List String :=
  Keyed.keys g.select ++ Keyed.keys g.aggregates

/-- The fields under their own names. -/
def Select.ofFields (names : List String) : Select :=
  Keyed.ofList (names.map fun name => (name, Selection.field name))

/-! ## 4. Depth -/

mutual
/-- The depth of the query that makes an entry; without one, zero. -/
def Selection.depth : Selection → Nat
  | .subquery ⟨_, _, select, _, _, _, _⟩ => 1 + Select.depth select
  | .field _ => 0
  | .expression _ => 0
termination_by structural x => x
/-- The depth of the deepest query in a selection; without one, zero. -/
def Select.depth : List (String × Selection) → Nat
  | [] => 0
  | (_, s) :: rest => max (Selection.depth s) (Select.depth rest)
termination_by structural x => x
end

/-- The number of levels of queries within queries. -/
def QueryOf.depth (q : Query) : Nat := 1 + Select.depth q.select

/-! ## 5. Equality can be decided -/

mutual
/-- Two selections are the same. -/
def Selection.same : Selection → Selection → Bool
  | .field a, .field b => a == b
  | .expression a, .expression b => decide (a = b)
  | .subquery ⟨t, i, s, f, o, l, gs⟩, .subquery ⟨t', i', s', f', o', l', gs'⟩ =>
    decide (t = t' ∧ i = i' ∧ f = f' ∧ o = o' ∧ l = l') && Select.same s s' && sameGroups gs gs'
  | _, _ => false
termination_by structural x => x
/-- Entry by entry. -/
def Select.same : List (String × Selection) → List (String × Selection) → Bool
  | [], [] => true
  | (k, a) :: as, (l, b) :: bs => decide (k = l) && Selection.same a b && Select.same as bs
  | _, _ => false
termination_by structural x => x
/-- Level by level. -/
def sameGroups : List (GroupOf Selection) → List (GroupOf Selection) → Bool
  | [], [] => true
  | ⟨ks, s, a, f, o, l⟩ :: gs, ⟨ks', s', a', f', o', l'⟩ :: gs' =>
    decide (ks = ks' ∧ a = a' ∧ f = f' ∧ o = o' ∧ l = l') && Select.same s s' && sameGroups gs gs'
  | _, _ => false
termination_by structural x => x
end

mutual
theorem Selection.same_iff : (a b : Selection) → (Selection.same a b = true ↔ a = b)
  | .field a, b => by cases b <;> simp [Selection.same]
  | .expression a, b => by cases b <;> simp [Selection.same]
  | .subquery ⟨t, i, s, f, o, l, gs⟩, b => by
    cases b with
    | field _ => simp [Selection.same]
    | expression _ => simp [Selection.same]
    | subquery q =>
      obtain ⟨t', i', s', f', o', l', gs'⟩ := q
      simp [Selection.same, Select.same_iff s s', sameGroups_iff gs gs']
      grind
termination_by structural x => x
theorem Select.same_iff :
    (a b : List (String × Selection)) → (Select.same a b = true ↔ a = b)
  | [], b => by cases b <;> simp [Select.same]
  | (k, v) :: as, b => by
    cases b with
    | nil => simp [Select.same]
    | cons e bs =>
      obtain ⟨l, w⟩ := e
      simp [Select.same, Selection.same_iff v w, Select.same_iff as bs]
termination_by structural x => x
theorem sameGroups_iff : (a b : List (GroupOf Selection)) → (sameGroups a b = true ↔ a = b)
  | [], b => by cases b <;> simp [sameGroups]
  | ⟨ks, s, a, f, o, l⟩ :: gs, b => by
    cases b with
    | nil => simp [sameGroups]
    | cons g bs =>
      obtain ⟨ks', s', a', f', o', l'⟩ := g
      simp [sameGroups, Select.same_iff s s', sameGroups_iff gs bs]
      grind
termination_by structural x => x
end

instance : DecidableEq Selection := fun a b => decidable_of_iff _ (Selection.same_iff a b)

deriving instance DecidableEq for GroupOf
deriving instance DecidableEq for QueryOf

end GraphQuery
