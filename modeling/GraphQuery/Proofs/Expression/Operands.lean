/-
# Operands that fit

An operator checks its operand when it is evaluated, so an operand that it cannot take comes to light
only if some input leads there.  `OperatorTable.fits` is the check that could be made before: it follows
an expression as evaluation does and asks of every operand that may be evaluated that the operator takes
it, whatever the input is.  **`evaluates_of_fits`: an expression that passes has a value on every
input**, unless the program stops in a sort.

The check is cautious.  Where an operator needs a list or a pattern, the operand has to be quoted or
plain data, since the value of any other expression is known only with the input, and no operand is
known to fit a function from outside.  A reduction of null takes the items of the input, so it fits
only where the input is known to be a list (`lists`).
-/
import GraphQuery.Proofs.Expression.Safety

namespace GraphQuery

namespace OperatorTable

variable (t : OperatorTable)

/-! ## 1. The check -/

/-- The value of an expression that does not depend on the input, where this can be told from its
form. -/
def constant? (v : Value) : Option Value :=
  match v.singleEntry? with
  | none => some v
  | some (tag, operand) =>
    match t.get? tag with
    | none => some v
    | some (.builtIn .literal) => some operand
    | some _ => none

/-- A comparison can take the value of its operand, whatever the input is. -/
def takes (c : Comparison) (operand : Value) : Bool :=
  match c with
  | .isIn | .notIn =>
    match t.constant? operand with
    | some (.list _) => true
    | _ => false
  | .matchesPattern =>
    match t.constant? operand with
    | some (.string text) => (Pattern.compile text).isOk
    | _ => false
  | _ => true

mutual
/-- Every operand that may be evaluated on some input fits its operator.  With `lists`, only inputs
that are lists are considered. -/
def fits (lists : Bool) : Value → Bool
  | .map [(tag, operand)] =>
    match t.get? tag with
    | none => true
    | some (.builtIn (.comparison c)) => t.takes c operand && fits lists operand
    | some (.builtIn .conjunction) | some (.builtIn .disjunction) =>
      match operand with
      | .list parts => partsFit lists parts
      | _ => false
    | some (.builtIn .negation) => (t.checkTag operand).isOk && fits lists operand
    | some (.builtIn (.access a)) => (a.path operand).isOk
    | some (.builtIn .literal) => true
    | some (.builtIn .conditional) =>
      match operand with
      | .map parts =>
        (Keyed.get? "if" parts).any (fun condition => (t.checkTag condition).isOk) &&
          entryFits lists "if" parts && entryFits lists "then" parts && entryFits lists "else" parts
      | _ => false
    | some (.builtIn .choice) =>
      match operand with
      | .map parts =>
        entryFits lists "value" parts && casesFitAmong lists parts && entryFits lists "default" parts
      | _ => false
    | some (.builtIn (.reduction _)) =>
      match operand with
      | .list _ => true
      | .null => lists
      | other => t.isExpression other && fits lists other
    | some (.custom _) => false
  | _ => true
termination_by structural x => x
/-- All parts fit. -/
def partsFit (lists : Bool) : List Value → Bool
  | [] => true
  | part :: rest => (t.checkTag part).isOk && fits lists part && partsFit lists rest
termination_by structural x => x
/-- The part under a key fits, if there is one. -/
def entryFits (lists : Bool) (key : String) : List (String × Value) → Bool
  | [] => true
  | (k, part) :: rest => if k = key then fits lists part else entryFits lists key rest
termination_by structural x => x
/-- The cases under the key `cases` fit, if there are any. -/
def casesFitAmong (lists : Bool) : List (String × Value) → Bool
  | [] => true
  | (k, part) :: rest =>
    if k = "cases" then
      match part with
      | .list cases => casesFit lists cases
      | _ => false
    else casesFitAmong lists rest
termination_by structural x => x
/-- All cases fit.  What is tested is the subject of the choice, which may be anything. -/
def casesFit (lists : Bool) : List Value → Bool
  | [] => true
  | .map parts :: rest =>
    Keyed.contains "then" parts &&
      (Keyed.get? "when" parts).any (fun condition => (t.checkTag condition).isOk) &&
        entryFits false "when" parts && entryFits lists "then" parts && casesFit lists rest
  | _ :: _ => false
termination_by structural x => x
end

/-! ## 2. Values on every input -/

/-- The input is one of those that are considered. -/
def Considered (lists : Bool) (input : Value) : Prop :=
  lists = true → ∃ items, input = .list items

/-- The expression has a value on every input that is considered, unless the program stops. -/
def Evaluates (lists : Bool) (v : Value) : Prop :=
  ∀ input, Considered lists input → FailsOnly (·.isStop) (t.evaluate v input)

variable {t} {lists : Bool} {input : Value}

theorem evaluate_of_constant? {v w : Value} (h : t.constant? v = some w) (input : Value) :
    t.evaluate v input = .ok w := by
  unfold constant? at h
  cases hv : v.singleEntry? with
  | none =>
    rw [hv] at h
    obtain rfl := Option.some.inj h
    exact evaluate_of_not_isExpression (by rw [isExpression, hv]) input
  | some e =>
    obtain ⟨tag, operand⟩ := e
    obtain rfl := Value.singleEntry?_eq_some.mp hv
    simp only [Value.singleEntry?] at h
    rw [evaluate.eq_def]
    dsimp only
    split at h
    · next hop => rw [hop, ← Option.some.inj h]
    · next hop => rw [hop, Option.some.inj h]
    · cases h

/-- **A comparison that takes its operand answers.** -/
theorem exists_test_of_takes {c : Comparison} {operand rhs : Value}
    (h : t.takes c operand = true) (hrhs : t.evaluate operand input = .ok rhs) :
    ∃ b, c.test input rhs = .ok b := by
  have hconstant : ∀ w, t.constant? operand = some w → rhs = w := fun w hw =>
    Except.ok.inj (hrhs.symm.trans (evaluate_of_constant? hw input))
  cases c with
  | isIn | notIn =>
    dsimp only [takes] at h
    split at h
    · next items hw => exact ⟨_, by rw [hconstant _ hw]; rfl⟩
    · cases h
  | matchesPattern =>
    dsimp only [takes] at h
    split at h
    · next text hw =>
      obtain ⟨pattern, hpattern⟩ := isOk_iff.mp h
      rw [hconstant _ hw, Comparison.test, Comparison.search, hpattern]
      cases input <;> exact ⟨_, rfl⟩
    · cases h
  | _ => exact ⟨_, rfl⟩

theorem fits_of_partsFit {parts : List Value} (h : t.partsFit lists parts = true) :
    ∀ part ∈ parts, t.checkTag part = .ok () ∧ t.fits lists part = true := by
  induction parts with
  | nil => exact fun _ hpart => absurd hpart List.not_mem_nil
  | cons part rest ih =>
    rw [partsFit, Bool.and_eq_true, Bool.and_eq_true] at h
    obtain ⟨⟨htag, hpart⟩, hrest⟩ := h
    exact List.forall_mem_cons.mpr ⟨⟨check_of_isOk htag, hpart⟩, ih hrest⟩

theorem fits_of_entryFits {key : String} {parts : List (String × Value)} {part : Value}
    (h : t.entryFits lists key parts = true) (hpart : Keyed.get? key parts = some part) :
    t.fits lists part = true := by
  induction parts with
  | nil => cases hpart
  | cons e rest ih =>
    obtain ⟨k, v⟩ := e
    rw [entryFits] at h
    rw [Keyed.get?] at hpart
    split at h
    · next hk =>
      rw [if_pos hk] at hpart
      exact Option.some.inj hpart ▸ h
    · next hk =>
      rw [if_neg hk] at hpart
      exact ih h hpart

/-- The part under a key that fits has a value. -/
theorem entryValue_stopsOnly {key : String} {parts : List (String × Value)}
    (h : t.entryFits lists key parts = true)
    (ih : ∀ e ∈ parts, t.fits lists e.2 = true → t.Evaluates lists e.2)
    (hinput : Considered lists input) : FailsOnly (·.isStop) (t.entryValue key parts input) :=
  entryValue_failsOnly fun part hpart =>
    ih (key, part) (Keyed.mem_of_get?_eq_some hpart) (fits_of_entryFits h hpart) input hinput

/-- A choice among cases comes to an end. -/
theorem chosen_stopsOnly {cases : List Value} (h : t.casesFit lists cases = true)
    (ih : ∀ parts, Value.map parts ∈ cases → ∀ e ∈ parts, ∀ lists, t.fits lists e.2 = true →
      t.Evaluates lists e.2)
    (subject : Value) (hinput : Considered lists input) :
    FailsOnly (·.isStop) (t.chosen cases subject input) := by
  induction cases with
  | nil => exact .ok
  | cons v rest hrest =>
    cases v with
    | map parts =>
      simp only [casesFit, Bool.and_eq_true] at h
      obtain ⟨⟨⟨⟨hthen, hwhen⟩, hcondition⟩, hresult⟩, hfits⟩ := h
      obtain ⟨result, hthen⟩ := Option.isSome_iff_exists.mp hthen
      obtain ⟨condition, hwhen, htag⟩ := (Option.any_eq_true _ _).mp hwhen
      have hparts := ih parts List.mem_cons_self
      have hrest := hrest hfits fun parts hmem => ih parts (List.mem_cons_of_mem _ hmem)
      have htested : FailsOnly (·.isStop) (t.entryValue "when" parts subject) :=
        entryValue_stopsOnly hcondition (fun e he => hparts e he false) nofun
      have hmade : FailsOnly (·.isStop) (t.entryValue "then" parts input) :=
        entryValue_stopsOnly hresult (fun e he => hparts e he lists) hinput
      have hnext : ∀ applies : Bool, FailsOnly (·.isStop) (if applies = true then do
            let v ← t.entryValue "then" parts input
            return some v
          else t.chosen rest subject input) := by
        intro applies
        split
        · exact hmade.bind fun _ _ => .pure
        · exact hrest
      rw [chosen, hwhen, hthen]
      dsimp only
      split
      · exact .bind (.of_eq_ok (check_of_isOk htag)) fun _ _ =>
          htested.bind fun v _ => hnext v.isTruthy
      · exact hnext (subject.looseEq condition)
    | _ => simp [casesFit] at h

theorem chosenAmong_stopsOnly {parts : List (String × Value)}
    (h : t.casesFitAmong lists parts = true)
    (ih : ∀ cases inner, ("cases", Value.list cases) ∈ parts → Value.map inner ∈ cases →
      ∀ e ∈ inner, ∀ lists, t.fits lists e.2 = true → t.Evaluates lists e.2)
    (subject : Value) (hinput : Considered lists input) :
    FailsOnly (·.isStop) (t.chosenAmong parts subject input) := by
  induction parts with
  | nil => exact .ok
  | cons e rest hrest =>
    obtain ⟨k, part⟩ := e
    by_cases hk : k = "cases"
    · subst hk
      cases part with
      | list cases =>
        rw [casesFitAmong, if_pos rfl] at h
        rw [chosenAmong, if_pos rfl]
        exact chosen_stopsOnly h (fun inner => ih cases inner List.mem_cons_self) subject hinput
      | _ => simp [casesFitAmong] at h
    · have hskip : t.chosenAmong ((k, part) :: rest) subject input =
          t.chosenAmong rest subject input := by
        cases part <;> simp only [chosenAmong, if_neg hk]
      have hfits : t.casesFitAmong lists rest = true := by
        cases part <;> simpa only [casesFitAmong, if_neg hk] using h
      rw [hskip]
      exact hrest hfits fun cases inner hmem => ih cases inner (List.mem_cons_of_mem _ hmem)

/-! ## 3. What fits has a value -/

/-- Under an operator that takes it, an operand with parts that have values has a value itself. -/
theorem evaluates_of_parts {tag : String} {operand : Value}
    (h : t.fits lists (.map [(tag, operand)]) = true)
    (hself : t.fits lists operand = true → t.Evaluates lists operand)
    (hitems : ∀ items, operand = .list items → ∀ w ∈ items, t.fits lists w = true →
      t.Evaluates lists w)
    (hparts : ∀ parts, operand = .map parts → ∀ e ∈ parts, t.fits lists e.2 = true →
      t.Evaluates lists e.2)
    (hcases : ∀ parts cases inner, operand = .map parts → ("cases", Value.list cases) ∈ parts →
      Value.map inner ∈ cases → ∀ e ∈ inner, ∀ lists, t.fits lists e.2 = true →
        t.Evaluates lists e.2) :
    t.Evaluates lists (.map [(tag, operand)]) := by
  intro input hinput
  rw [evaluate.eq_def]
  rw [fits.eq_def] at h
  dsimp only at h ⊢
  cases hop : t.get? tag with
  | none => exact .ok
  | some fn =>
    rw [hop] at h
    cases fn with
    | custom apply => cases h
    | builtIn op =>
      cases op with
      | comparison c =>
        obtain ⟨htakes, hfits⟩ := Bool.and_eq_true_iff.mp h
        refine (hself hfits input hinput).bind fun rhs hrhs => ?_
        obtain ⟨b, hb⟩ := exists_test_of_takes htakes hrhs
        exact .bind (.of_eq_ok hb) fun _ _ => .pure
      | conjunction =>
        cases operand with
        | list items =>
          have hfits := fits_of_partsFit h
          exact (allTrue_failsOnly fun v hv => (hfits v hv).imp_right fun hfits =>
            hitems items rfl v hv hfits input hinput).map
        | _ => cases h
      | disjunction =>
        cases operand with
        | list items =>
          have hfits := fits_of_partsFit h
          exact (anyTrue_failsOnly fun v hv => (hfits v hv).imp_right fun hfits =>
            hitems items rfl v hv hfits input hinput).map
        | _ => cases h
      | negation =>
        obtain ⟨htag, hfits⟩ := Bool.and_eq_true_iff.mp h
        exact .bind (.of_eq_ok (check_of_isOk htag)) fun _ _ =>
          (hself hfits input hinput).bind fun _ _ => .pure
      | access a =>
        obtain ⟨p, hp⟩ := isOk_iff.mp h
        exact .of_eq_ok (by dsimp only; rw [Access.read, hp]; rfl)
      | literal => exact .ok
      | conditional =>
        cases operand with
        | map parts =>
          simp only [Bool.and_eq_true] at h
          obtain ⟨⟨⟨hcondition, hif⟩, hthen⟩, helse⟩ := h
          obtain ⟨condition, hcondition, htag⟩ := (Option.any_eq_true _ _).mp hcondition
          dsimp only
          rw [hcondition]
          refine .bind (.of_eq_ok (check_of_isOk htag)) fun _ _ =>
            .bind (entryValue_stopsOnly hif (hparts parts rfl) hinput) fun v _ => ?_
          split
          · exact entryValue_stopsOnly hthen (hparts parts rfl) hinput
          · exact entryValue_stopsOnly helse (hparts parts rfl) hinput
        | _ => cases h
      | choice =>
        cases operand with
        | map parts =>
          simp only [Bool.and_eq_true] at h
          obtain ⟨⟨hvalue, hamong⟩, hdefault⟩ := h
          have hchosen := fun subject =>
            chosenAmong_stopsOnly hamong (hcases parts · · rfl) subject hinput
          have hdefault := entryValue_stopsOnly hdefault (hparts parts rfl) hinput
          dsimp only
          split
          · refine .bind (entryValue_stopsOnly hvalue (hparts parts rfl) hinput) fun subject _ =>
              (hchosen subject).bind fun w? _ => ?_
            cases w? with
            | some w => exact .pure
            | none => exact hdefault
          · refine .bind .ok fun subject _ => (hchosen subject).bind fun w? _ => ?_
            cases w? with
            | some w => exact .pure
            | none => exact hdefault
        | _ => cases h
      | reduction r =>
        cases operand with
        | list items => exact r.apply_failsOnly items
        | null =>
          obtain ⟨items, rfl⟩ := hinput h
          exact r.apply_failsOnly items
        | _ =>
          obtain ⟨hexpression, hfits⟩ := Bool.and_eq_true_iff.mp h
          dsimp only
          rw [if_pos hexpression]
          exact (hself hfits input hinput).bind fun v _ => r.apply_failsOnly (itemsOf v)

/-- **An expression whose operands fit has a value on every input**, unless the program stops. -/
theorem evaluates_of_fits {v : Value} (h : t.fits lists v = true) : t.Evaluates lists v := by
  induction hn : sizeOf v using Nat.strongRecOn generalizing v lists with
  | _ n ih =>
  cases hexpr : t.isExpression v with
  | false => exact fun input _ => .of_eq_ok (evaluate_of_not_isExpression hexpr input)
  | true =>
    obtain ⟨tag, operand, rfl, -⟩ := isExpression_iff.mp hexpr
    have hsize : sizeOf operand < n :=
      hn ▸ @Value.sizeOf_lt_of_mem_entries (tag, operand) _ List.mem_cons_self
    refine evaluates_of_parts h (fun hfits => ih _ hsize hfits rfl) ?_ ?_ ?_
    · rintro items rfl w hw hfits
      have hlt := Value.sizeOf_lt_of_mem_items hw
      exact ih _ (by omega) hfits rfl
    · rintro parts rfl e he hfits
      have hlt := Value.sizeOf_lt_of_mem_entries he
      exact ih _ (by omega) hfits rfl
    · rintro parts cases inner rfl hcases hinner e he lists hfits
      have hlt : sizeOf (Value.list cases) < sizeOf (Value.map parts) :=
        Value.sizeOf_lt_of_mem_entries hcases
      have hlt' := Value.sizeOf_lt_of_mem_items hinner
      have hlt'' := Value.sizeOf_lt_of_mem_entries he
      exact ih _ (by omega) hfits rfl

end OperatorTable

end GraphQuery
