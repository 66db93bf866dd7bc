/-
# Filters and expressions that say the same

Connectives are there twice.  A filter has conjunctions, disjunctions and negations of its own, and
so has an expression, under `$and`, `$or` and `$not`; a filter asks at a path whether a value equals
another one, and so does `$eq`.  The two are evaluated by different functions, each of which stops
where its answer is settled.

A tree of tests of one value (`TestTree`) can be written either way: as a filter with a condition at
each leaf (`TestTree.toFilter`), or as one condition (`TestTree.toExpression`).  What stands at a leaf
is an expression or data, as the table has it.  **`holds_toFilter`** says that both have the same
outcome on every row: the same answer, or the same error.

All parts of the expression are expressions, so no tag is ever refused on the way
(`checkTag_toExpression`).
-/
import GraphQuery.Proofs.Expression.Checks
import GraphQuery.Rows.Filtering

namespace GraphQuery

/-! ## 1. Connectives in expressions -/

/-- The tags of the connectives and of equality have their operators. -/
structure OperatorTable.Connectives (t : OperatorTable) : Prop where
  conjunction : t.get? "$and" = some (.builtIn .conjunction)
  disjunction : t.get? "$or" = some (.builtIn .disjunction)
  negation : t.get? "$not" = some (.builtIn .negation)
  equality : t.get? "$eq" = some (.builtIn (.comparison .eq))

/-! ## 2. Trees of tests -/

/-- A tree of tests of one value.  At a leaf stands an expression, or data that the value is to
equal. -/
inductive TestTree where
  | leaf (v : Value)
  | conjunction (parts : List TestTree)
  | disjunction (parts : List TestTree)
  | negation (part : TestTree)
  deriving Inhabited

namespace TestTree

/-- The condition at a leaf. -/
def condition (t : OperatorTable) (v : Value) : Condition :=
  if t.isExpression v then .expression v else .equals v

/-- The expression at a leaf. -/
def leafExpression (t : OperatorTable) (v : Value) : Value :=
  if t.isExpression v then v else .map [("$eq", v)]

mutual
/-- The tree as a filter: its leaves are conditions at the path. -/
def toFilter (t : OperatorTable) (path : String) : TestTree → Filter
  | leaf v => .field path (condition t v)
  | conjunction parts => .conjunction (toFilters t path parts)
  | disjunction parts => .disjunction (toFilters t path parts)
  | negation part => .negation (toFilter t path part)
termination_by structural x => x
/-- Part by part. -/
def toFilters (t : OperatorTable) (path : String) : List TestTree → List Filter
  | [] => []
  | part :: rest => toFilter t path part :: toFilters t path rest
termination_by structural x => x
end

mutual
/-- The tree as one expression. -/
def toExpression (t : OperatorTable) : TestTree → Value
  | leaf v => leafExpression t v
  | conjunction parts => .map [("$and", .list (toExpressions t parts))]
  | disjunction parts => .map [("$or", .list (toExpressions t parts))]
  | negation part => .map [("$not", toExpression t part)]
termination_by structural x => x
/-- Part by part. -/
def toExpressions (t : OperatorTable) : List TestTree → List Value
  | [] => []
  | part :: rest => toExpression t part :: toExpressions t rest
termination_by structural x => x
end

variable {t : OperatorTable}

theorem isExpression_toExpression (h : t.Connectives) (tree : TestTree) :
    t.isExpression (tree.toExpression t) = true := by
  cases tree with
  | leaf v =>
    rw [toExpression, leafExpression]
    split
    · next hv => exact hv
    · exact OperatorTable.isExpression_of_get? h.equality v
  | conjunction parts => exact OperatorTable.isExpression_of_get? h.conjunction _
  | disjunction parts => exact OperatorTable.isExpression_of_get? h.disjunction _
  | negation part => exact OperatorTable.isExpression_of_get? h.negation _

theorem checkTag_toExpression (h : t.Connectives) (tree : TestTree) :
    t.checkTag (tree.toExpression t) = .ok () :=
  OperatorTable.checkTag_of_isExpression (isExpression_toExpression h tree)

/-! ## 3. Both are the same test -/

/-- At a leaf, an expression is evaluated either way, and data is compared either way. -/
theorem evaluate_leafExpression (h : t.Connectives) (v input : Value) :
    (t.evaluate (leafExpression t v) input).map Value.isTruthy =
      (condition t v).holds t input := by
  unfold leafExpression condition
  cases hv : t.isExpression v with
  | true => rfl
  | false =>
    rw [if_neg Bool.false_ne_true, if_neg Bool.false_ne_true,
      OperatorTable.evaluate_equality h.equality hv]
    rfl

mutual
/-- **The expression of a tree is true where its filter holds.**  By recursion on the tree; each
connective goes through its parts as the filter does. -/
theorem evaluate_toExpression (h : t.Connectives) (path : String) (row : Value) :
    (tree : TestTree) →
      (t.evaluate (tree.toExpression t) (row.follow (Path.ofText path))).map Value.isTruthy =
        (tree.toFilter t path).holds t row
  | leaf v => by
    rw [toExpression, toFilter, Filter.holds]
    exact evaluate_leafExpression h v _
  | conjunction parts => by
    rw [toExpression, toFilter, Filter.holds, OperatorTable.evaluate_conjunction h.conjunction,
      allTrue_toExpressions h path row parts]
    cases Filter.allHold t row (toFilters t path parts) <;> rfl
  | disjunction parts => by
    rw [toExpression, toFilter, Filter.holds, OperatorTable.evaluate_disjunction h.disjunction,
      anyTrue_toExpressions h path row parts]
    cases Filter.anyHolds t row (toFilters t path parts) <;> rfl
  | negation part => by
    rw [toExpression, toFilter, Filter.holds, ← evaluate_toExpression h path row part,
      OperatorTable.evaluate_negation h.negation (isExpression_toExpression h part)]
    cases t.evaluate (part.toExpression t) (row.follow (Path.ofText path)) <;> rfl
termination_by structural tree => tree
theorem allTrue_toExpressions (h : t.Connectives) (path : String) (row : Value) :
    (parts : List TestTree) →
      t.allTrue (toExpressions t parts) (row.follow (Path.ofText path)) =
        Filter.allHold t row (toFilters t path parts)
  | [] => rfl
  | part :: rest => by
    rw [toExpressions, toFilters, OperatorTable.allTrue, Filter.allHold,
      checkTag_toExpression h part, ok_bind, ← evaluate_toExpression h path row part, map_bind,
      allTrue_toExpressions h path row rest]
termination_by structural parts => parts
theorem anyTrue_toExpressions (h : t.Connectives) (path : String) (row : Value) :
    (parts : List TestTree) →
      t.anyTrue (toExpressions t parts) (row.follow (Path.ofText path)) =
        Filter.anyHolds t row (toFilters t path parts)
  | [] => rfl
  | part :: rest => by
    rw [toExpressions, toFilters, OperatorTable.anyTrue, Filter.anyHolds,
      checkTag_toExpression h part, ok_bind, ← evaluate_toExpression h path row part, map_bind,
      anyTrue_toExpressions h path row rest]
termination_by structural parts => parts
end

/-- **Connectives of filters and of expressions agree.**  A tree of tests has the same outcome on
every row, whether its connectives are those of the filter, with the path at each leaf, or those of
one expression at the path: the same answer, or the same error. -/
theorem holds_toFilter (t : OperatorTable) (h : t.Connectives) (path : String) (row : Value)
    (tree : TestTree) :
    (tree.toFilter t path).holds t row =
      (Filter.field path (.expression (tree.toExpression t))).holds t row := by
  rw [← evaluate_toExpression h path row tree, Filter.holds]
  rfl

/-- A tree in which the first leaf that does not settle the answer has an operand of the wrong kind. -/
def agedTree : TestTree :=
  .conjunction [.leaf (.map [("$gt", .int 18)]), .negation (.leaf (.string "old")), .conjunction [],
    .disjunction [.leaf (.int 30), .leaf (.map [("$in", .int 3)])]]

theorem holds_toFilter_aged :
    let t := OperatorTable.standard
    let refused := Operator.refuse (.comparison .isIn) (.listExpected .int)
    t.Connectives ∧
      (agedTree.toFilter t "age").holds t (.map [("age", .int 40)]) = .error refused ∧
      (Filter.field "age" (.expression (agedTree.toExpression t))).holds t
        (.map [("age", .int 40)]) = .error refused ∧
      (agedTree.toFilter t "age").holds t (.map [("age", .int 30)]) =
        (Filter.field "age" (.expression (agedTree.toExpression t))).holds t
          (.map [("age", .int 30)]) := by
  intro t refused
  have h : t.Connectives := ⟨rfl, rfl, rfl, rfl⟩
  have hrefused : (agedTree.toFilter t "age").holds t (.map [("age", .int 40)]) =
      .error refused := by decide +kernel
  exact ⟨h, hrefused, (holds_toFilter t h "age" _ agedTree).symm.trans hrefused,
    holds_toFilter t h "age" _ agedTree⟩

end TestTree

end GraphQuery
