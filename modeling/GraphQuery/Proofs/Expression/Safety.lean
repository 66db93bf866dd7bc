/-
# Checked expressions fail only on data

The check of all tags is made before an expression is evaluated, and evaluation decides for each
operator on its own which parts of the operand it looks at.  This module says that the two fit
together: an expression that passed the check never meets a tag without operator, nor data where an
expression is required.  What is left are operands that do not fit their operator, texts that are no
patterns, and sorts that stop the program (`ExprError.isLate`).

`Safe` says so of one value.  For each way in which an operator goes through its operand there is a
lemma that hands a bound on errors on from the parts (`allTrue_failsOnly`, `chosen_failsOnly`, ...),
and **`safe_of_checkOperators`** puts them together by induction on the size of the expression.

The check skips what `$literal` quotes.  So the table must not bind that tag to an operator that
evaluates; every other tag may be bound to any operator that is built in, and to a function from
outside if that fails only on data itself (`FailsOnData`).
-/
import GraphQuery.Proofs.Expression.Checks

namespace GraphQuery

/-! ## 1. Errors of evaluation -/

/-- The error is about an operand or a pattern, not about what is an expression. -/
def ExprError.isRunTime : ExprError → Bool
  | invalidOperand _ _ | invalidPattern _ _ => true
  | unknownOperator _ | notAnExpression _ | stopped => false

/-- What no check of tags can foresee: such an error, or a stop. -/
def ExprError.isLate (e : ExprError) : Bool := e.isRunTime || e.isStop

theorem Comparison.test_failsOnly (c : Comparison) (input rhs : Value) :
    FailsOnly (·.isLate) (c.test input rhs) := by
  have hmember : ∀ c, FailsOnly (·.isLate) (member c input rhs) := by
    intro c
    unfold member
    split
    · exact .ok
    · exact .error rfl
  have hsearch : FailsOnly (·.isLate) (search input rhs) := by
    unfold search
    repeat' split
    · exact .ok
    · exact .ok
    · exact .error rfl
    · exact .error rfl
  cases c with
  | isIn => exact hmember .isIn
  | notIn => exact (hmember .notIn).map
  | matchesPattern => exact hsearch
  | _ => exact .ok

theorem Access.read_failsOnly (a : Access) (operand input : Value) :
    FailsOnly (·.isLate) (a.read operand input) := by
  have hsegments : ∀ items, FailsOnly (·.isLate) (a.segments items) := by
    intro items
    induction items with
    | nil => exact .ok
    | cons v rest ih =>
      unfold segments
      split
      · exact .ok
      · next heq =>
        obtain ⟨rfl, rfl⟩ := List.cons.inj heq
        exact ih.map
      · exact .error rfl
  refine FailsOnly.map ?_
  unfold path
  split
  · exact .ok
  · exact hsegments _
  · exact .error rfl

/-- A reduction comes to nothing only where its items have to be sorted. -/
theorem Reduction.apply_failsOnly (r : Reduction) (items : List Value) :
    FailsOnly (·.isStop) (r.apply items) := by
  cases r with
  | median =>
    rw [apply]
    split
    · exact .ok
    · exact .error rfl
  | _ => exact .ok

namespace OperatorTable

variable {t : OperatorTable}

/-! ## 2. Evaluation of parts -/

section

variable {P : ExprError → Prop} {input : Value}

theorem allTrue_failsOnly {parts : List Value}
    (h : ∀ v ∈ parts, t.checkTag v = .ok () ∧ FailsOnly P (t.evaluate v input)) :
    FailsOnly P (t.allTrue parts input) := by
  induction parts with
  | nil => exact .ok
  | cons v rest ih =>
    obtain ⟨htag, heval⟩ := h v List.mem_cons_self
    rw [allTrue]
    refine .bind (.of_eq_ok htag) fun _ _ => heval.bind fun b _ => ?_
    split
    · exact ih fun w hw => h w (List.mem_cons_of_mem _ hw)
    · exact .pure

theorem anyTrue_failsOnly {parts : List Value}
    (h : ∀ v ∈ parts, t.checkTag v = .ok () ∧ FailsOnly P (t.evaluate v input)) :
    FailsOnly P (t.anyTrue parts input) := by
  induction parts with
  | nil => exact .ok
  | cons v rest ih =>
    obtain ⟨htag, heval⟩ := h v List.mem_cons_self
    rw [anyTrue]
    refine .bind (.of_eq_ok htag) fun _ _ => heval.bind fun b _ => ?_
    split
    · exact .pure
    · exact ih fun w hw => h w (List.mem_cons_of_mem _ hw)

theorem entryValue_failsOnly {key : String} {parts : List (String × Value)}
    (h : ∀ part, Keyed.get? key parts = some part → FailsOnly P (t.evaluate part input)) :
    FailsOnly P (t.entryValue key parts input) := by
  rw [entryValue_eq]
  split
  · next part hpart => exact h part hpart
  · exact .ok

end

/-! ## 3. Safe parts -/

/-- The value carries no unknown tag, and evaluating it fails only on data. -/
def Safe (t : OperatorTable) (v : Value) : Prop :=
  t.checkTag v = .ok () ∧ ∀ input, FailsOnly (·.isLate) (t.evaluate v input)

/-- What stands under the keys of a map is safe, quoted data apart. -/
def SafeParts (t : OperatorTable) (parts : List (String × Value)) : Prop :=
  ∀ key v, Keyed.get? key parts = some v → key ≠ "$literal" → t.Safe v

theorem SafeParts.entryValue {parts : List (String × Value)} (h : t.SafeParts parts)
    {key : String} (hkey : key ≠ "$literal") (input : Value) :
    FailsOnly (·.isLate) (t.entryValue key parts input) :=
  entryValue_failsOnly fun part hpart => (h key part hpart hkey).2 input

/-- A choice among cases evaluates their conditions on the subject and their results on the input. -/
theorem chosen_failsOnly {cases : List Value}
    (h : ∀ parts, Value.map parts ∈ cases → t.SafeParts parts) (subject input : Value) :
    FailsOnly (·.isLate) (t.chosen cases subject input) := by
  induction cases with
  | nil => exact .ok
  | cons v rest ih =>
    have ih := ih fun parts hparts => h parts (List.mem_cons_of_mem _ hparts)
    cases v with
    | map parts =>
      have hparts := h parts List.mem_cons_self
      rw [chosen]
      split
      · next condition result hwhen hthen =>
        have hcondition := hparts "when" condition hwhen (by decide)
        have hnext : ∀ applies : Bool, FailsOnly (·.isLate)
            (if applies = true then do
              let v ← t.entryValue "then" parts input
              return some v
            else t.chosen rest subject input) := by
          intro applies
          split
          · exact .bind (hparts.entryValue (by decide) input) fun _ _ => .pure
          · exact ih
        dsimp only
        split
        · exact .bind (.of_eq_ok hcondition.1) fun _ _ =>
            .bind (hparts.entryValue (by decide) subject) fun v _ => hnext v.isTruthy
        · exact hnext (subject.looseEq condition)
      · exact .error rfl
    | _ => exact .error rfl

theorem chosenAmong_failsOnly {parts : List (String × Value)}
    (h : ∀ cases inner, Keyed.get? "cases" parts = some (.list cases) → Value.map inner ∈ cases →
      t.SafeParts inner) (subject input : Value) :
    FailsOnly (·.isLate) (t.chosenAmong parts subject input) := by
  induction parts with
  | nil => exact .ok
  | cons e rest ih =>
    obtain ⟨k, part⟩ := e
    by_cases hk : k = "cases"
    · cases part with
      | list cases =>
        rw [chosenAmong, if_pos hk]
        exact chosen_failsOnly (fun inner => h cases inner (if_pos hk)) subject input
      | _ =>
        simp only [chosenAmong, if_pos hk]
        exact .error rfl
    · have hrest : t.chosenAmong ((k, part) :: rest) subject input =
          t.chosenAmong rest subject input := by
        cases part <;> simp only [chosenAmong, if_neg hk]
      rw [hrest]
      exact ih fun cases inner hcases => h cases inner ((if_neg hk).trans hcases)

/-! ## 4. Checked expressions are safe -/

/-- If there is an operator under the tag `$literal`, it quotes its operand, and the functions from
outside fail only on data. -/
structure FailsOnData (t : OperatorTable) : Prop where
  quotes : ∀ fn, t.get? "$literal" = some fn → fn = .builtIn .literal
  custom : ∀ tag apply, t.get? tag = some (.custom apply) → ∀ operand input,
    FailsOnly (·.isLate) (apply operand input)

/-- Of a table of operators that are built in only the first is asked. -/
theorem failsOnData_of_builtIn (hbuiltIn : ∀ tag fn, t.get? tag = some fn → ∃ op, fn = .builtIn op)
    (hquotes : ∀ fn, t.get? "$literal" = some fn → fn = .builtIn .literal) : t.FailsOnData where
  quotes := hquotes
  custom tag apply happly := by
    obtain ⟨op, hop⟩ := hbuiltIn tag _ happly
    cases hop

theorem standard_failsOnData : standard.FailsOnData := by
  refine failsOnData_of_builtIn (fun tag fn hfn => ?_) fun fn hfn => ?_
  · rw [get?_standard, Option.map_eq_some_iff] at hfn
    obtain ⟨op, -, rfl⟩ := hfn
    exact ⟨op, rfl⟩
  · have hliteral : standard.get? "$literal" = some (.builtIn .literal) := by
      rw [get?_standard]
      rfl
    exact (Option.some.inj (hliteral.symm.trans hfn)).symm

/-- Under an operator that evaluates, an operand with safe parts fails only on data. -/
theorem evaluate_failsOnly_of_parts {tag : String} {operand input : Value} {op : Operator}
    (hop : t.get? tag = some (.builtIn op))
    (hself : op ≠ .literal → t.Safe operand)
    (hitems : op ≠ .literal → ∀ items, operand = .list items → ∀ w ∈ items, t.Safe w)
    (hparts : op ≠ .literal → ∀ parts, operand = .map parts → t.SafeParts parts)
    (hcases : op ≠ .literal → ∀ parts cases inner, operand = .map parts →
      Keyed.get? "cases" parts = some (.list cases) → Value.map inner ∈ cases →
      t.SafeParts inner) :
    FailsOnly (·.isLate) (t.evaluate (.map [(tag, operand)]) input) := by
  rw [evaluate.eq_def]
  simp only [hop]
  cases op with
  | comparison c =>
    exact .bind ((hself (by simp)).2 input) fun rhs _ =>
      .bind (c.test_failsOnly input rhs) fun _ _ => .pure
  | conjunction =>
    cases operand with
    | list items =>
      exact (allTrue_failsOnly fun v hv => (hitems (by simp) items rfl v hv).imp_right (· input)).map
    | _ => exact .error rfl
  | disjunction =>
    cases operand with
    | list items =>
      exact (anyTrue_failsOnly fun v hv => (hitems (by simp) items rfl v hv).imp_right (· input)).map
    | _ => exact .error rfl
  | negation =>
    obtain ⟨htag, heval⟩ := hself (by simp)
    exact .bind (.of_eq_ok htag) fun _ _ => .bind (heval input) fun _ _ => .pure
  | access a => exact a.read_failsOnly operand input
  | literal => exact .ok
  | conditional =>
    cases operand with
    | map parts =>
      have hsafe := hparts (by simp) parts rfl
      dsimp only
      split
      · exact .error rfl
      · next condition hif =>
        refine .bind (.of_eq_ok (hsafe "if" condition hif (by decide)).1) fun _ _ =>
          .bind (hsafe.entryValue (by decide) input) fun v _ => hsafe.entryValue ?_ input
        split <;> decide
    | _ => exact .error rfl
  | choice =>
    cases operand with
    | map parts =>
      have hsafe := hparts (by simp) parts rfl
      have hamong : ∀ subject, FailsOnly (·.isLate) (t.chosenAmong parts subject input) :=
        fun subject =>
          chosenAmong_failsOnly (fun cases inner => hcases (by simp) parts cases inner rfl) subject
            input
      have hdefault : FailsOnly (·.isLate) (t.entryValue "default" parts input) :=
        hsafe.entryValue (by decide) input
      dsimp only
      split
      · refine .bind (hsafe.entryValue (by decide) input) fun subject _ =>
          .bind (hamong subject) fun v? _ => ?_
        cases v? with
        | some v => exact .pure
        | none => exact hdefault
      · refine .bind .ok fun subject _ => .bind (hamong subject) fun v? _ => ?_
        cases v? with
        | some v => exact .pure
        | none => exact hdefault
    | _ => exact .error rfl
  | reduction r =>
    have happly : ∀ items, FailsOnly (·.isLate) (r.apply items) := fun items =>
      (r.apply_failsOnly items).mono fun err herr => by simp [ExprError.isLate, herr]
    cases operand with
    | list items => exact happly items
    | null =>
      cases input with
      | list items => exact happly items
      | _ => exact .error rfl
    | _ =>
      dsimp only
      split
      · exact .bind ((hself (by simp)).2 input) fun v _ => happly (itemsOf v)
      · exact .error rfl

/-- **An expression all of whose tags have operators fails only on data.** -/
theorem safe_of_checkOperators (htable : t.FailsOnData) {v : Value}
    (h : t.checkOperators v = .ok ()) : t.Safe v := by
  induction hn : sizeOf v using Nat.strongRecOn generalizing v with
  | _ n ih =>
  refine ⟨checkTag_of_checkOperators h, fun input => ?_⟩
  cases hexpr : t.isExpression v with
  | false => exact .of_eq_ok (evaluate_of_not_isExpression hexpr input)
  | true =>
    obtain ⟨tag, operand, rfl, hcontains⟩ := isExpression_iff.mp hexpr
    obtain ⟨fn, hfn⟩ := Option.isSome_iff_exists.mp hcontains
    cases fn with
    | custom apply =>
      rw [evaluate_custom hfn]
      exact htable.custom tag apply hfn operand input
    | builtIn op =>
      have hsize : sizeOf operand < n :=
        hn ▸ @Value.sizeOf_lt_of_mem_entries (tag, operand) _ List.mem_cons_self
      have hoperand : op ≠ .literal → t.checkOperators operand = .ok () := by
        intro hne
        refine checkOperators_operand h ?_
        rintro rfl
        exact hne (OperatorFn.builtIn.inj (htable.quotes _ hfn))
      -- What is smaller than the operand and checked is safe; maps are safe part by part.
      have hmap : ∀ parts, sizeOf (Value.map parts) ≤ sizeOf operand →
          t.checkOperators (.map parts) = .ok () → t.SafeParts parts := by
        intro parts hle hcheck key w hw hkey
        have hlt := Value.sizeOf_lt_of_get? hw
        exact ih _ (by omega) (checkOperators_of_get? hcheck hw hkey) rfl
      refine evaluate_failsOnly_of_parts hfn ?_ ?_ ?_ ?_
      · exact fun hne => ih _ hsize (hoperand hne) rfl
      · rintro hne items rfl w hw
        have hlt := Value.sizeOf_lt_of_mem_items hw
        exact ih _ (by omega) (checkOperators_of_mem_items (hoperand hne) hw) rfl
      · rintro hne parts rfl
        exact hmap parts (Nat.le_refl _) (hoperand hne)
      · rintro hne parts cases inner rfl hcases hinner
        have hlt := Value.sizeOf_lt_of_get? hcases
        have hlt' := Value.sizeOf_lt_of_mem_items hinner
        have hlist := checkOperators_of_get? (hoperand hne) hcases (by decide)
        exact hmap inner (by omega) (checkOperators_of_mem_items hlist hinner)

/-- What is accepted where an expression is required fails only on data. -/
theorem Accepts.evaluate_failsOnly (htable : t.FailsOnData) {v : Value} (h : t.Accepts v)
    (input : Value) : FailsOnly (·.isLate) (t.evaluate v input) :=
  (safe_of_checkOperators htable h.2).2 input

theorem Accepts.evaluateRequired_failsOnly (htable : t.FailsOnData) {v : Value}
    (h : t.Accepts v) (input : Value) :
    FailsOnly (·.isLate) (t.evaluateRequired v input) :=
  .bind (.of_eq_ok (checkExpression_eq_ok_iff.mpr h.1)) fun _ _ => h.evaluate_failsOnly htable input

end OperatorTable

end GraphQuery
