/-
# What the checks of expressions say

`Accepts` collects what a place that requires an expression asks for: the value is an expression,
and every tag inside, quoted data apart, has an operator.  The lemmas here turn the outcome of each
check into such a condition, and say what the check of all tags hands down to the parts of a value.
The last ones say what evaluation makes of data, and of an expression whose operator is known.
-/
import GraphQuery.Proofs.Entries
import GraphQuery.Proofs.Outcome
import GraphQuery.Query.Dialect

namespace GraphQuery

/-! ## 1. Expressions as parts of queries -/

namespace QueryError

variable {α : Type}

theorem ofExpr_eq_ok {x : Except ExprError α} {a : α} : ofExpr x = .ok a ↔ x = .ok a := by
  cases x <;> simp [ofExpr]

theorem ofExpr_eq_error {x : Except ExprError α} {e : QueryError} :
    ofExpr x = .error e ↔ ∃ e', x = .error e' ∧ expression e' = e := by
  cases x <;> simp [ofExpr]

end QueryError

namespace Value

theorem singleEntry?_eq_some {v : Value} {e : String × Value} :
    v.singleEntry? = some e ↔ v = .map [e] := by
  unfold singleEntry?
  split <;> simp_all

/-- A map with two different keys is not tagged. -/
theorem singleEntry?_of_two_keys {entries : List (String × Value)} {key key' : String}
    (h : key ∈ Keyed.keys entries) (h' : key' ∈ Keyed.keys entries) (hne : key ≠ key') :
    singleEntry? (.map entries) = none := by
  match entries with
  | [] => exact absurd h List.not_mem_nil
  | [e] => exact absurd ((List.mem_singleton.mp h).trans (List.mem_singleton.mp h').symm) hne
  | _ :: _ :: _ => rfl

end Value

namespace OperatorTable

variable {t : OperatorTable}

/-! ## 2. One value -/

theorem isExpression_iff {v : Value} :
    t.isExpression v = true ↔ ∃ tag operand, v = .map [(tag, operand)] ∧ t.contains tag = true := by
  unfold isExpression
  cases h : v.singleEntry? with
  | none =>
    refine ⟨fun he => absurd he (by simp), ?_⟩
    rintro ⟨tag, operand, rfl, -⟩
    exact absurd h (by simp [Value.singleEntry?])
  | some e =>
    obtain ⟨tag, operand⟩ := e
    rw [Value.singleEntry?_eq_some] at h
    subst h
    constructor
    · intro hc
      exact ⟨tag, operand, rfl, hc⟩
    · rintro ⟨tag', operand', hv, hc⟩
      simp only [Value.map.injEq, List.cons.injEq, Prod.mk.injEq, and_true] at hv
      exact hv.1 ▸ hc

theorem isExpression_of_get? {tag : String} {op : OperatorFn} (h : t.get? tag = some op)
    (operand : Value) : t.isExpression (.map [(tag, operand)]) = true :=
  isExpression_iff.mpr ⟨tag, operand, rfl, by rw [contains, h]; rfl⟩

theorem checkTag_of_isExpression {v : Value} (h : t.isExpression v = true) :
    t.checkTag v = .ok () := by
  obtain ⟨tag, operand, rfl, hcontains⟩ := isExpression_iff.mp h
  simp [checkTag, Value.singleEntry?, hcontains]

theorem isExpression_of_two_keys {entries : List (String × Value)} {key key' : String}
    (h : key ∈ Keyed.keys entries) (h' : key' ∈ Keyed.keys entries) (hne : key ≠ key') :
    t.isExpression (.map entries) = false := by
  unfold isExpression
  rw [Value.singleEntry?_of_two_keys h h' hne]

theorem checkExpression_eq_ok_iff {v : Value} :
    t.checkExpression v = .ok () ↔ t.isExpression v = true := by
  unfold checkExpression isExpression
  split
  · split
    · simp_all
    · split <;> simp_all
  · simp

/-- An expression all of whose tags have operators. -/
def Accepts (t : OperatorTable) (v : Value) : Prop :=
  t.isExpression v = true ∧ t.checkOperators v = .ok ()

theorem requireExpression_eq_ok_iff {v : Value} :
    t.requireExpression v = .ok () ↔ t.Accepts v := by
  unfold requireExpression
  rw [check_bind_eq_ok, QueryError.ofExpr_eq_ok, QueryError.ofExpr_eq_ok,
    checkExpression_eq_ok_iff, Accepts]

theorem Accepts.exists_entry {v : Value} (h : t.Accepts v) :
    ∃ tag operand, v = .map [(tag, operand)] ∧ t.contains tag = true :=
  isExpression_iff.mp h.1

/-! ## 3. What the check of all tags hands down -/

/-- What passes the check of all tags passes that of its own tag. -/
theorem checkTag_of_checkOperators {v : Value} (h : t.checkOperators v = .ok ()) :
    t.checkTag v = .ok () := by
  unfold checkTag
  cases hv : v.singleEntry? with
  | none => rfl
  | some e =>
    obtain ⟨tag, operand⟩ := e
    obtain rfl := Value.singleEntry?_eq_some.mp hv
    rw [checkOperators] at h
    split_ifs at h with hlit hunknown
    · simp [hlit.2]
    · simp [hunknown]

theorem checkOperatorsItems_eq_forM (items : List Value) :
    t.checkOperatorsItems items = items.forM t.checkOperators := by
  induction items with
  | nil => rfl
  | cons v rest ih => rw [checkOperatorsItems, ih]; rfl

theorem checkOperatorsEntries_eq_forM (entries : List (String × Value)) :
    t.checkOperatorsEntries entries = entries.forM fun e => t.checkOperators e.2 := by
  induction entries with
  | nil => rfl
  | cons e rest ih => rw [checkOperatorsEntries, ih]; rfl

theorem checkOperators_of_mem_items {items : List Value}
    (h : t.checkOperators (.list items) = .ok ()) {v : Value} (hv : v ∈ items) :
    t.checkOperators v = .ok () := by
  rw [checkOperators, checkOperatorsItems_eq_forM, forM_eq_ok_iff] at h
  exact h v hv

/-- The operand of a tag is checked, unless the tag quotes it. -/
theorem checkOperators_operand {tag : String} {operand : Value}
    (h : t.checkOperators (.map [(tag, operand)]) = .ok ()) (htag : tag ≠ "$literal") :
    t.checkOperators operand = .ok () := by
  rw [checkOperators, if_neg fun hlit => htag hlit.1] at h
  split_ifs at h
  exact h

/-- Whatever stands under a key of a map, but for `$literal`, is checked. -/
theorem checkOperators_of_get? {entries : List (String × Value)}
    (h : t.checkOperators (.map entries) = .ok ()) {key : String} {v : Value}
    (hv : Keyed.get? key entries = some v) (hkey : key ≠ "$literal") :
    t.checkOperators v = .ok () := by
  match entries with
  | [] => exact absurd hv (by simp)
  | [(tag, operand)] =>
    have hmem := List.mem_singleton.mp (Keyed.mem_of_get?_eq_some hv)
    obtain ⟨rfl, rfl⟩ := Prod.mk.inj hmem
    exact checkOperators_operand h hkey
  | e :: e' :: rest =>
    rw [checkOperators, checkOperatorsEntries_eq_forM, forM_eq_ok_iff] at h
    · exact h _ (Keyed.mem_of_get?_eq_some hv)
    · simp

/-! ## 4. Data, functions from outside, comparisons and paths -/

/-- Data is its own value. -/
theorem evaluate_of_not_isExpression {v : Value} (h : t.isExpression v = false) (input : Value) :
    t.evaluate v input = .ok v := by
  match v with
  | .map [(tag, operand)] =>
    have hnone : t.get? tag = none := by
      cases hop : t.get? tag with
      | none => rfl
      | some op => simp [isExpression_of_get? hop] at h
    rw [evaluate.eq_def]
    simp only [hnone]
  | .map [] | .map (_ :: _ :: _) => rw [evaluate]; simp
  | .null | .bool _ | .int _ | .float _ | .string _ | .list _ => rw [evaluate]; simp

/-- A function from outside gets its operand as it stands. -/
theorem evaluate_custom {tag : String} {apply : Value → Value → Except ExprError Value}
    (h : t.get? tag = some (.custom apply)) (operand input : Value) :
    t.evaluate (.map [(tag, operand)]) input = apply operand input := by
  rw [evaluate.eq_def]
  simp only [h]

example : (standard.register "$eq" (.custom fun _ _ => .ok (.bool true))).evaluate
    (.map [("$eq", .int 1)]) (.int 2) = .ok (.bool true) := by decide +kernel

/-- An operand that is data is compared as it stands. -/
theorem evaluate_comparison {tag : String} {c : Comparison}
    (h : t.get? tag = some (.builtIn (.comparison c))) {v : Value}
    (hv : t.isExpression v = false) (input : Value) :
    t.evaluate (.map [(tag, v)]) input = (c.test input v).map .bool := by
  rw [evaluate.eq_def]
  simp only [h, evaluate_of_not_isExpression hv, ok_bind]
  cases c.test input v <;> rfl

theorem evaluate_equality {tag : String} (h : t.get? tag = some (.builtIn (.comparison .eq)))
    {v : Value} (hv : t.isExpression v = false) (input : Value) :
    t.evaluate (.map [(tag, v)]) input = .ok (.bool (input.looseEq v)) := by
  rw [evaluate_comparison h hv]
  rfl

theorem evaluate_access {tag : String} {a : Access} (h : t.get? tag = some (.builtIn (.access a)))
    (operand input : Value) : t.evaluate (.map [(tag, operand)]) input = a.read operand input := by
  rw [evaluate.eq_def]
  simp only [h]

/-! ## 5. Connectives and reductions -/

theorem evaluate_conjunction {tag : String} (h : t.get? tag = some (.builtIn .conjunction))
    (parts : List Value) (input : Value) :
    t.evaluate (.map [(tag, .list parts)]) input = (t.allTrue parts input).map .bool := by
  rw [evaluate, h]

theorem evaluate_disjunction {tag : String} (h : t.get? tag = some (.builtIn .disjunction))
    (parts : List Value) (input : Value) :
    t.evaluate (.map [(tag, .list parts)]) input = (t.anyTrue parts input).map .bool := by
  rw [evaluate, h]

/-- No tag is refused where an expression is negated. -/
theorem evaluate_negation {tag : String} (h : t.get? tag = some (.builtIn .negation)) {part : Value}
    (hpart : t.isExpression part = true) (input : Value) :
    t.evaluate (.map [(tag, part)]) input =
      (t.evaluate part input).map fun v => .bool (!v.isTruthy) := by
  rw [evaluate.eq_def]
  simp only [h, checkTag_of_isExpression hpart, ok_bind]
  cases t.evaluate part input <;> rfl

/-- The items that a reduction reduces: those of its operand as they stand, those of the input under
null, or what the value of an expression comes to. -/
def reducedItems (t : OperatorTable) (r : Reduction) (operand input : Value) :
    Except ExprError (List Value) :=
  match operand, input with
  | .list items, _ => .ok items
  | .null, .list items => .ok items
  | .null, other => .error (Operator.refuse (.reduction r) (.listInputExpected other.kind))
  | other, _ =>
    if t.isExpression other then (t.evaluate other input).map itemsOf
    else .error (Operator.refuse (.reduction r) (.itemsExpected other.kind))

theorem reducedItems_of_isExpression {operand : Value} (h : t.isExpression operand = true)
    (r : Reduction) (input : Value) :
    t.reducedItems r operand input = (t.evaluate operand input).map itemsOf := by
  obtain ⟨tag, inner, rfl, -⟩ := isExpression_iff.mp h
  exact if_pos h

/-- **A reduction gathers its items and then reduces them.** -/
theorem evaluate_reduction {tag : String} {r : Reduction}
    (h : t.get? tag = some (.builtIn (.reduction r))) (operand input : Value) :
    t.evaluate (.map [(tag, operand)]) input = t.reducedItems r operand input >>= r.apply := by
  have hvalue : ∀ v : Value, (t.evaluate v input >>= fun w => r.apply (itemsOf w)) =
      ((t.evaluate v input).map itemsOf) >>= r.apply := by
    intro v
    rw [map_bind]
  rw [evaluate.eq_def]
  cases operand with
  | list items => simp only [h]; rfl
  | null => cases input <;> (simp only [h]; rfl)
  | _ =>
    simp only [h, reducedItems]
    split
    · exact hvalue _
    · rfl

end OperatorTable

end GraphQuery
