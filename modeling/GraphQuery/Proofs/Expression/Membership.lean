/-
# Membership as a disjunction

A value is in a list if some item equals it, and there are two ways to ask: `$in` compares each item
with the input, and a `$or` of `$eq` compares the input with each item.  Loose equality has a case
for either side being whole and the other floating point, so that the two agree rests on its symmetry
(**`looseEq_comm`**), down to the leaves of nested lists and maps.  It holds for NaN too, which equals
nothing on either side.

The list is no expression, so `$in` takes its items as they stand, whatever they are; `$eq` evaluates
its operand.  The two agree where the items are data (**`evaluate_membership`**).
-/
import GraphQuery.Proofs.Expression.Checks
import GraphQuery.Value.Comparison

namespace GraphQuery

namespace Value

/-! ## 1. Symmetry of loose equality -/

mutual
/-- **Loose equality does not depend on the order of its sides.** -/
theorem looseEq_comm : (a b : Value) → a.looseEq b = b.looseEq a
  | null, b => by cases b <;> rfl
  | bool a, b => by cases b <;> first | rfl | exact BEq.comm
  | int a, b => by cases b <;> first | rfl | exact BEq.comm
  | float a, b => by cases b <;> first | rfl | exact Binary64.eqv_comm _ _
  | string a, b => by cases b <;> first | rfl | exact BEq.comm
  | list as, b => by cases b <;> first | rfl | exact looseEqItems_comm as _
  | map as, b => by cases b <;> first | rfl | exact looseEqEntries_comm as _
theorem looseEqItems_comm : (as bs : List Value) → looseEqItems as bs = looseEqItems bs as
  | [], bs => by cases bs <;> rfl
  | a :: as, bs => by
    cases bs with
    | nil => rfl
    | cons b bs => rw [looseEqItems, looseEqItems, looseEq_comm a b, looseEqItems_comm as bs]
theorem looseEqEntries_comm :
    (as bs : List (String × Value)) → looseEqEntries as bs = looseEqEntries bs as
  | [], bs => by cases bs <;> rfl
  | (k, a) :: as, bs => by
    cases bs with
    | nil => rfl
    | cons e bs =>
      obtain ⟨l, b⟩ := e
      rw [looseEqEntries, looseEqEntries, looseEq_comm a b, looseEqEntries_comm as bs,
        BEq.comm (a := k)]
end

end Value

/-! ## 2. Membership -/

namespace OperatorTable

variable {t : OperatorTable}

/-- The tags of membership and of what it comes down to have their operators. -/
structure Memberships (t : OperatorTable) : Prop where
  isIn : t.get? "$in" = some (.builtIn (.comparison .isIn))
  notIn : t.get? "$nin" = some (.builtIn (.comparison .notIn))
  disjunction : t.get? "$or" = some (.builtIn .disjunction)
  negation : t.get? "$not" = some (.builtIn .negation)
  equality : t.get? "$eq" = some (.builtIn (.comparison .eq))

/-- The value is one of the items, as `$in` compares them. -/
def isAmong (input : Value) (items : List Value) : Bool := items.any fun v => v.looseEq input

theorem isExpression_list (items : List Value) : t.isExpression (.list items) = false := rfl

theorem evaluate_isIn (h : t.get? "$in" = some (.builtIn (.comparison .isIn))) (items : List Value)
    (input : Value) :
    t.evaluate (.map [("$in", .list items)]) input = .ok (.bool (isAmong input items)) := by
  rw [evaluate_comparison h (isExpression_list items)]
  rfl

theorem evaluate_notIn (h : t.get? "$nin" = some (.builtIn (.comparison .notIn))) (items : List Value)
    (input : Value) :
    t.evaluate (.map [("$nin", .list items)]) input = .ok (.bool (!isAmong input items)) := by
  rw [evaluate_comparison h (isExpression_list items)]
  rfl

/-- A disjunction of tests that all have answers asks whether one of them is true. -/
theorem anyTrue_map {items : List Value} {input : Value} {test : Value → Value}
    {answer : Value → Bool} (htest : ∀ v ∈ items, t.isExpression (test v) = true)
    (hanswer : ∀ v ∈ items, t.evaluate (test v) input = .ok (.bool (answer v))) :
    t.anyTrue (items.map test) input = .ok (items.any answer) := by
  induction items with
  | nil => rfl
  | cons v rest ih =>
    obtain ⟨hv, hrest⟩ := List.forall_mem_cons.mp htest
    obtain ⟨hv', hrest'⟩ := List.forall_mem_cons.mp hanswer
    rw [List.map_cons, anyTrue, checkTag_of_isExpression hv, ok_bind, hv', ok_bind, ih hrest hrest',
      List.any_cons]
    cases answer v <;> rfl

/-- **Membership is a disjunction of equalities.**  Loose equality is symmetric.  A value is in a list
just if some item equals it, and not in it just if the negation of `$in` is true, whatever the items
are.  If they are data, it is in the list just if one of the tests for equality with an item is true
of it.  All four have an answer. -/
theorem evaluate_membership (t : OperatorTable) (h : t.Memberships) :
    (∀ a b : Value, a.looseEq b = b.looseEq a) ∧
      ∀ items input, ∃ found,
        t.evaluate (.map [("$in", .list items)]) input = .ok (.bool found) ∧
        (found = true ↔ ∃ v ∈ items, v.looseEq input = true) ∧
        t.evaluate (.map [("$nin", .list items)]) input = .ok (.bool (!found)) ∧
        t.evaluate (.map [("$not", .map [("$in", .list items)])]) input = .ok (.bool (!found)) ∧
        ((∀ v ∈ items, t.isExpression v = false) →
          t.evaluate (.map [("$or", .list (items.map fun v => .map [("$eq", v)]))]) input =
            .ok (.bool found)) := by
  refine ⟨Value.looseEq_comm, fun items input => ⟨isAmong input items, ?_, ?_, ?_, ?_, ?_⟩⟩
  · exact evaluate_isIn h.isIn items input
  · rw [isAmong, List.any_eq_true]
  · exact evaluate_notIn h.notIn items input
  · rw [evaluate_negation h.negation (isExpression_of_get? h.isIn _), evaluate_isIn h.isIn]
    rfl
  · intro hdata
    have hsides : isAmong input items = items.any fun v => input.looseEq v := by
      simp only [isAmong, Value.looseEq_comm _ input]
    rw [evaluate_disjunction h.disjunction, hsides,
      anyTrue_map (fun v _ => isExpression_of_get? h.equality v)
        fun v hv => evaluate_equality h.equality (hdata v hv) input]
    rfl

/-- A list that equals an item of another list whose numbers are of the other kind; NaN is not in a
list of itself. -/
theorem evaluate_membership_nested :
    let t := standard
    let nan := Value.float (.nan false)
    let input := Value.list [.int 2, .map [("a", .float (.ofInt 1))]]
    let items := [nan, .map [("$unknown", .int 2)], .list [.float (.ofInt 2), .map [("a", .int 1)]]]
    t.Memberships ∧ (∀ v ∈ items, t.isExpression v = false) ∧
      t.evaluate (.map [("$or", .list (items.map fun v => .map [("$eq", v)]))]) input =
        .ok (.bool true) ∧
      t.evaluate (.map [("$not", .map [("$in", .list items)])]) input = .ok (.bool false) ∧
      t.evaluate (.map [("$nin", .list [nan])]) nan = .ok (.bool true) := by
  intro t nan input items
  have h : t.Memberships := ⟨rfl, rfl, rfl, rfl, rfl⟩
  have hdata : ∀ v ∈ items, t.isExpression v = false := by decide +kernel
  obtain ⟨-, hmember⟩ := evaluate_membership t h
  obtain ⟨found, -, hfound, -, hnot, hor⟩ := hmember items input
  obtain ⟨found', -, hfound', hnotIn, -, -⟩ := hmember [nan] nan
  have htrue : found = true := hfound.mpr (by decide +kernel)
  have hnone : ¬∃ v ∈ [nan], v.looseEq nan = true := by decide +kernel
  have hfalse : found' = false := Bool.eq_false_iff.mpr (mt hfound'.mp hnone)
  subst htrue hfalse
  exact ⟨h, hdata, hor hdata, hnot, hnotIn⟩

end OperatorTable

end GraphQuery
