/-
# Data is never code

Which maps are expressions is decided by the table of operators, and an operator calls the evaluator
on parts of its operand that it chooses itself.  This module says what the table is asked about
while an expression is evaluated: the keys that stand in the expression, and of these none that is
quoted.  Nothing that is read from the input or computed on the way is ever looked up.

It is said of two tables.  `Alike` holds of a value if both give it the same outcomes on every
input.  As for the checks, there is one lemma for each way in which an operator goes through its
operand (`allTrue_congr`, `chosen_congr`, ...), `evaluate_congr_of_parts` puts them together for one
operator, and the induction on the size of the expression is in **`alike_of_unquotedKeys`**.

The tables may differ on any other tag, so a value that the input brings in, or that `$literal`
quotes, may be an expression under one table and data under the other; the outcome does not show it.
-/
import GraphQuery.Proofs.Expression.Safety

namespace GraphQuery

/-! ## 1. Keys inside a value -/

namespace Value

mutual
/-- The keys of the value and of all maps inside it. -/
def keysWithin : Value → List String
  | .map entries => keysWithinEntries entries
  | .list items => keysWithinItems items
  | _ => []
/-- The keys of all maps inside the items. -/
def keysWithinItems : List Value → List String
  | [] => []
  | v :: rest => keysWithin v ++ keysWithinItems rest
/-- The keys of the entries and of all maps inside their values. -/
def keysWithinEntries : List (String × Value) → List String
  | [] => []
  | (k, v) :: rest => k :: (keysWithin v ++ keysWithinEntries rest)
end

end Value

namespace OperatorTable

variable {t t' : OperatorTable}

/-- Under the table, the tag quotes its operand. -/
def quotes (t : OperatorTable) (tag : String) : Bool :=
  tag == "$literal" &&
    match t.get? tag with
    | some (.builtIn .literal) => true
    | _ => false

mutual
/-- The keys of the value and of all maps inside it, but for what is quoted. -/
def unquotedKeys (t : OperatorTable) : Value → List String
  | .map [(tag, operand)] => tag :: if t.quotes tag then [] else unquotedKeys t operand
  | .map entries => unquotedKeysEntries t entries
  | .list items => unquotedKeysItems t items
  | _ => []
/-- The unquoted keys of all maps inside the items. -/
def unquotedKeysItems (t : OperatorTable) : List Value → List String
  | [] => []
  | v :: rest => unquotedKeys t v ++ unquotedKeysItems t rest
/-- The keys of the entries and the unquoted ones of all maps inside their values. -/
def unquotedKeysEntries (t : OperatorTable) : List (String × Value) → List String
  | [] => []
  | (k, v) :: rest => k :: (unquotedKeys t v ++ unquotedKeysEntries t rest)
end

theorem unquotedKeysItems_eq_flatMap (items : List Value) :
    t.unquotedKeysItems items = items.flatMap t.unquotedKeys := by
  induction items with
  | nil => rfl
  | cons v rest ih => rw [unquotedKeysItems, ih, List.flatMap_cons]

theorem mem_unquotedKeysEntries {key : String} {e : String × Value}
    {entries : List (String × Value)} (he : e ∈ entries) (h : key ∈ t.unquotedKeys e.2) :
    key ∈ t.unquotedKeysEntries entries := by
  induction entries with
  | nil => exact absurd he List.not_mem_nil
  | cons a rest ih =>
    obtain ⟨k, v⟩ := a
    rw [unquotedKeysEntries, List.mem_cons, List.mem_append]
    rcases List.mem_cons.mp he with rfl | he
    · exact Or.inr (Or.inl h)
    · exact Or.inr (Or.inr (ih he))

mutual
/-- The unquoted keys are among all keys. -/
theorem unquotedKeys_subset : (v : Value) → t.unquotedKeys v ⊆ v.keysWithin
  | .map [(tag, operand)] => by
    rw [unquotedKeys, Value.keysWithin, Value.keysWithinEntries, Value.keysWithinEntries,
      List.append_nil]
    refine List.cons_subset_cons tag ?_
    split
    · exact List.nil_subset _
    · exact unquotedKeys_subset operand
  | .map [] => by simp [unquotedKeys, unquotedKeysEntries]
  | .map (e :: e' :: rest) => by
    rw [unquotedKeys, Value.keysWithin]
    · exact unquotedKeysEntries_subset (e :: e' :: rest)
    · simp
  | .list items => by
    rw [unquotedKeys, Value.keysWithin]
    exact unquotedKeysItems_subset items
  | .null | .bool _ | .int _ | .float _ | .string _ => by simp [unquotedKeys]
theorem unquotedKeysItems_subset :
    (items : List Value) → t.unquotedKeysItems items ⊆ Value.keysWithinItems items
  | [] => by simp [unquotedKeysItems]
  | v :: rest => by
    rw [unquotedKeysItems, Value.keysWithinItems]
    exact List.append_subset.mpr
      ⟨List.subset_append_of_subset_left _ (unquotedKeys_subset v),
        List.subset_append_of_subset_right _ (unquotedKeysItems_subset rest)⟩
theorem unquotedKeysEntries_subset :
    (entries : List (String × Value)) →
      t.unquotedKeysEntries entries ⊆ Value.keysWithinEntries entries
  | [] => by simp [unquotedKeysEntries]
  | (k, v) :: rest => by
    rw [unquotedKeysEntries, Value.keysWithinEntries]
    exact List.cons_subset_cons k <| List.append_subset.mpr
      ⟨List.subset_append_of_subset_left _ (unquotedKeys_subset v),
        List.subset_append_of_subset_right _ (unquotedKeysEntries_subset rest)⟩
end

/-! ## 2. Tables that agree -/

/-- Both tables bind the keys to the same operators, or leave them without one. -/
def AgreeOn (t t' : OperatorTable) (keys : List String) : Prop :=
  ∀ key ∈ keys, t.get? key = t'.get? key

theorem AgreeOn.mono {keys keys' : List String} (h : t.AgreeOn t' keys) (hsub : keys' ⊆ keys) :
    t.AgreeOn t' keys' := fun key hkey => h key (hsub hkey)

/-- A table agrees on all other tags with the one in which a tag has lost its operator. -/
theorem agreeOn_unregister {keys : List String} {tag : String} (h : tag ∉ keys) :
    t.AgreeOn (t.unregister tag) keys := by
  intro key hkey
  have hne : tag ≠ key := fun heq => h (heq ▸ hkey)
  rw [unregister, get?, get?, Keyed.get?_erase, if_neg hne]

theorem AgreeOn.contains_eq {keys : List String} (h : t.AgreeOn t' keys) {key : String}
    (hkey : key ∈ keys) : t.contains key = t'.contains key := by
  rw [contains, contains, h key hkey]

/-- What the tables are asked about in a value is asked about in its only entry. -/
theorem AgreeOn.singleEntry {v : Value} (h : t.AgreeOn t' (t.unquotedKeys v)) {tag : String}
    {operand : Value} (hv : v.singleEntry? = some (tag, operand)) :
    t.contains tag = t'.contains tag := by
  obtain rfl := Value.singleEntry?_eq_some.mp hv
  exact h.contains_eq (by rw [unquotedKeys]; exact List.mem_cons_self)

theorem AgreeOn.checkTag_eq {v : Value} (h : t.AgreeOn t' (t.unquotedKeys v)) :
    t.checkTag v = t'.checkTag v := by
  unfold checkTag
  split
  · next hv => rw [h.singleEntry hv]
  · rfl

theorem AgreeOn.checkExpression_eq {v : Value} (h : t.AgreeOn t' (t.unquotedKeys v)) :
    t.checkExpression v = t'.checkExpression v := by
  unfold checkExpression
  split
  · next hv => rw [h.singleEntry hv]
  · rfl

theorem AgreeOn.isExpression_eq {v : Value} (h : t.AgreeOn t' (t.unquotedKeys v)) :
    t.isExpression v = t'.isExpression v := by
  unfold isExpression
  split
  · next hv => exact h.singleEntry hv
  · rfl

theorem AgreeOn.of_mem_items {items : List Value}
    (h : t.AgreeOn t' (t.unquotedKeys (.list items))) {v : Value} (hv : v ∈ items) :
    t.AgreeOn t' (t.unquotedKeys v) := by
  rw [unquotedKeys, unquotedKeysItems_eq_flatMap] at h
  exact h.mono fun key hkey => List.mem_flatMap.mpr ⟨v, hv, hkey⟩

/-- Agreement on an expression is agreement on its operand, unless that is quoted. -/
theorem AgreeOn.operand {tag : String} {operand : Value}
    (h : t.AgreeOn t' (t.unquotedKeys (.map [(tag, operand)]))) (hquotes : t.quotes tag = false) :
    t.AgreeOn t' (t.unquotedKeys operand) := by
  rw [unquotedKeys, hquotes] at h
  exact h.mono (List.subset_cons_self tag _)

/-- Agreement on a map is agreement on whatever stands under its keys, but for `$literal`. -/
theorem AgreeOn.of_get? {entries : List (String × Value)}
    (h : t.AgreeOn t' (t.unquotedKeys (.map entries))) {key : String} {v : Value}
    (hv : Keyed.get? key entries = some v) (hkey : key ≠ "$literal") :
    t.AgreeOn t' (t.unquotedKeys v) := by
  match entries with
  | [] => exact absurd hv (by simp)
  | [(tag, operand)] =>
    obtain ⟨rfl, rfl⟩ := Prod.mk.inj (List.mem_singleton.mp (Keyed.mem_of_get?_eq_some hv))
    refine h.operand ?_
    simp [quotes, hkey]
  | e :: e' :: rest =>
    rw [unquotedKeys] at h
    · exact h.mono fun k hk => mem_unquotedKeysEntries (Keyed.mem_of_get?_eq_some hv) hk
    · simp

/-! ## 3. Parts with the same outcomes -/

/-- As an operand and as an expression, the value has the same outcomes under both tables. -/
structure Alike (t t' : OperatorTable) (v : Value) : Prop where
  checkTag : t.checkTag v = t'.checkTag v
  isExpression : t.isExpression v = t'.isExpression v
  evaluate : ∀ input, t.evaluate v input = t'.evaluate v input

/-- What stands under the keys of a map has the same outcomes, quoted data apart. -/
def AlikeParts (t t' : OperatorTable) (parts : List (String × Value)) : Prop :=
  ∀ key v, Keyed.get? key parts = some v → key ≠ "$literal" → t.Alike t' v

theorem allTrue_congr {parts : List Value} (h : ∀ v ∈ parts, t.Alike t' v) (input : Value) :
    t.allTrue parts input = t'.allTrue parts input := by
  induction parts with
  | nil => rfl
  | cons v rest ih =>
    have hv := h v List.mem_cons_self
    have hrest := ih fun w hw => h w (List.mem_cons_of_mem _ hw)
    rw [allTrue, allTrue, hv.checkTag, hv.evaluate, hrest]

theorem anyTrue_congr {parts : List Value} (h : ∀ v ∈ parts, t.Alike t' v) (input : Value) :
    t.anyTrue parts input = t'.anyTrue parts input := by
  induction parts with
  | nil => rfl
  | cons v rest ih =>
    have hv := h v List.mem_cons_self
    have hrest := ih fun w hw => h w (List.mem_cons_of_mem _ hw)
    rw [anyTrue, anyTrue, hv.checkTag, hv.evaluate, hrest]

theorem entryValue_congr {parts : List (String × Value)} (h : t.AlikeParts t' parts)
    {key : String} (hkey : key ≠ "$literal") (input : Value) :
    t.entryValue key parts input = t'.entryValue key parts input := by
  rw [entryValue_eq, entryValue_eq]
  split
  · next part hpart => exact (h key part hpart hkey).evaluate input
  · rfl

/-- The subject of a choice is a computed value; it is only compared, or handed on as input. -/
theorem chosen_congr {cases : List Value}
    (h : ∀ parts, Value.map parts ∈ cases → t.AlikeParts t' parts) (subject input : Value) :
    t.chosen cases subject input = t'.chosen cases subject input := by
  induction cases with
  | nil => rfl
  | cons v rest ih =>
    have ih := ih fun parts hparts => h parts (List.mem_cons_of_mem _ hparts)
    cases v with
    | map parts =>
      have hparts := h parts List.mem_cons_self
      rw [chosen, chosen]
      split
      · next condition result hwhen hthen =>
        have hcondition := hparts "when" condition hwhen (by decide)
        rw [hcondition.isExpression, hcondition.checkTag,
          entryValue_congr hparts (by decide) subject, entryValue_congr hparts (by decide) input,
          ih]
      · rfl
    | _ => rfl

theorem chosenAmong_congr {parts : List (String × Value)}
    (h : ∀ cases inner, Keyed.get? "cases" parts = some (.list cases) → Value.map inner ∈ cases →
      t.AlikeParts t' inner) (subject input : Value) :
    t.chosenAmong parts subject input = t'.chosenAmong parts subject input := by
  induction parts with
  | nil => rfl
  | cons e rest ih =>
    obtain ⟨k, part⟩ := e
    by_cases hk : k = "cases"
    · cases part with
      | list cases =>
        rw [chosenAmong, chosenAmong, if_pos hk, if_pos hk]
        exact chosen_congr (fun inner => h cases inner (if_pos hk)) subject input
      | _ => simp only [chosenAmong, if_pos hk]
    · have hrest := ih fun cases inner hcases => h cases inner ((if_neg hk).trans hcases)
      cases part <;> simp only [chosenAmong, if_neg hk, hrest]

/-! ## 4. Expressions -/

/-- An operator has the same outcome under both tables if what it evaluates does. -/
theorem evaluate_congr_of_parts {tag : String} {operand input : Value} {op : Operator}
    (hop : t.get? tag = some (.builtIn op)) (hop' : t'.get? tag = some (.builtIn op))
    (hself : op ≠ .literal → t.Alike t' operand)
    (hitems : op ≠ .literal → ∀ items, operand = .list items → ∀ w ∈ items, t.Alike t' w)
    (hparts : op ≠ .literal → ∀ parts, operand = .map parts → t.AlikeParts t' parts)
    (hcases : op ≠ .literal → ∀ parts cases inner, operand = .map parts →
      Keyed.get? "cases" parts = some (.list cases) → Value.map inner ∈ cases →
      t.AlikeParts t' inner) :
    t.evaluate (.map [(tag, operand)]) input = t'.evaluate (.map [(tag, operand)]) input := by
  rw [evaluate.eq_def, evaluate.eq_def]
  simp only [hop, hop']
  cases op with
  | comparison c => simp only [(hself (by simp)).evaluate]
  | conjunction =>
    cases operand with
    | list items => simp only [allTrue_congr (hitems (by simp) items rfl) input]
    | _ => rfl
  | disjunction =>
    cases operand with
    | list items => simp only [anyTrue_congr (hitems (by simp) items rfl) input]
    | _ => rfl
  | negation => simp only [(hself (by simp)).checkTag, (hself (by simp)).evaluate]
  | access a => rfl
  | literal => rfl
  | conditional =>
    cases operand with
    | map parts =>
      have halike := hparts (by simp) parts rfl
      dsimp only
      split
      · rfl
      · next condition hif =>
        rw [(halike "if" condition hif (by decide)).checkTag,
          entryValue_congr halike (by decide) input]
        refine congrArg _ (funext fun _ => congrArg _ (funext fun v => ?_))
        refine entryValue_congr halike ?_ input
        split <;> decide
    | _ => rfl
  | choice =>
    cases operand with
    | map parts =>
      have halike := hparts (by simp) parts rfl
      have hvalue : t.entryValue "value" parts input = t'.entryValue "value" parts input :=
        entryValue_congr halike (by decide) input
      have hdefault : t.entryValue "default" parts input = t'.entryValue "default" parts input :=
        entryValue_congr halike (by decide) input
      have hamong : ∀ subject, t.chosenAmong parts subject input =
          t'.chosenAmong parts subject input := fun subject =>
        chosenAmong_congr (fun cases inner => hcases (by simp) parts cases inner rfl) subject input
      simp only [hvalue, hdefault, hamong]
    | _ => rfl
  | reduction r =>
    cases operand with
    | list items => rfl
    | null => rfl
    | _ => simp only [(hself (by simp)).isExpression, (hself (by simp)).evaluate]

/-- **Tables that agree on the unquoted keys of an expression give it the same outcomes.**  The
input is not mentioned: no key of it is ever looked up. -/
theorem alike_of_unquotedKeys {v : Value} (h : t.AgreeOn t' (t.unquotedKeys v)) :
    t.Alike t' v := by
  induction hn : sizeOf v using Nat.strongRecOn generalizing v with
  | _ n ih =>
  refine ⟨h.checkTag_eq, h.isExpression_eq, fun input => ?_⟩
  cases hexpr : t.isExpression v with
  | false =>
    have hexpr' : t'.isExpression v = false := h.isExpression_eq ▸ hexpr
    rw [evaluate_of_not_isExpression hexpr, evaluate_of_not_isExpression hexpr']
  | true =>
    obtain ⟨tag, operand, rfl, hcontains⟩ := isExpression_iff.mp hexpr
    obtain ⟨fn, hfn⟩ := Option.isSome_iff_exists.mp hcontains
    have hfn' : t'.get? tag = some fn := by
      rw [← h tag (by rw [unquotedKeys]; exact List.mem_cons_self), hfn]
    cases fn with
    | custom apply => rw [evaluate_custom hfn, evaluate_custom hfn']
    | builtIn op =>
      have hsize : sizeOf operand < n :=
        hn ▸ @Value.sizeOf_lt_of_mem_entries (tag, operand) _ List.mem_cons_self
      -- Only the operator that quotes has a quoted operand.
      have hoperand : op ≠ .literal → t.AgreeOn t' (t.unquotedKeys operand) := by
        intro hne
        refine h.operand ?_
        simp [quotes, hfn, hne]
      have hmap : ∀ parts, sizeOf (Value.map parts) ≤ sizeOf operand →
          t.AgreeOn t' (t.unquotedKeys (.map parts)) → t.AlikeParts t' parts := by
        intro parts hle hagree key w hw hkey
        have hlt := Value.sizeOf_lt_of_get? hw
        exact ih _ (by omega) (hagree.of_get? hw hkey) rfl
      refine evaluate_congr_of_parts hfn hfn' ?_ ?_ ?_ ?_
      · intro hne
        exact ih _ hsize (hoperand hne) rfl
      · rintro hne items rfl w hw
        have hlt := Value.sizeOf_lt_of_mem_items hw
        exact ih _ (by omega) ((hoperand hne).of_mem_items hw) rfl
      · rintro hne parts rfl
        exact hmap parts (Nat.le_refl _) (hoperand hne)
      · rintro hne parts cases inner rfl hcases hinner
        have hlt := Value.sizeOf_lt_of_get? hcases
        have hlt' := Value.sizeOf_lt_of_mem_items hinner
        have hlist := (hoperand hne).of_get? hcases (by decide)
        exact hmap inner (by omega) (hlist.of_mem_items hinner)

/-- No input tells the two tables apart on the expression, in whichever place it stands. -/
def SameOutcomes (t t' : OperatorTable) (e : Value) : Prop :=
  ∀ input, t.evaluate e input = t'.evaluate e input ∧
    t.evaluateOperand e input = t'.evaluateOperand e input ∧
    t.evaluateRequired e input = t'.evaluateRequired e input

theorem AgreeOn.sameOutcomes {e : Value} (h : t.AgreeOn t' (t.unquotedKeys e)) :
    t.SameOutcomes t' e := by
  intro input
  have heval : t.evaluate e input = t'.evaluate e input := (alike_of_unquotedKeys h).evaluate input
  refine ⟨heval, ?_, ?_⟩
  · rw [evaluateOperand, evaluateOperand, h.checkTag_eq, heval]
  · rw [evaluateRequired, evaluateRequired, h.checkExpression_eq, heval]

/-- **Data is never evaluated as code.**  Tables that agree on every key inside an expression give
it the same outcomes on every input, whatever the input holds.  Of quoted data not even the keys
matter. -/
theorem sameOutcomes_of_agreeOn (t t' : OperatorTable) (e : Value)
    (h : t.AgreeOn t' e.keysWithin) :
    t.SameOutcomes t' e ∧
      ∀ other : OperatorTable, t.AgreeOn other (t.unquotedKeys e) → t.SameOutcomes other e :=
  ⟨(h.mono (unquotedKeys_subset e)).sameOutcomes, fun _ hother => hother.sameOutcomes⟩

/-- An expression that quotes another one, or reads a value from the input. -/
def quoteOrRead : Value := .map [("$if", .map [
  ("else", .map [("$get", .string "x")]), ("if", .map [("$eq", .int 0)]),
  ("then", .map [("$literal", .map [("$count", .null)])])])]

theorem sameOutcomes_of_agreeOn_quoteOrRead :
    standard.AgreeOn (standard.unregister "$sum") quoteOrRead.keysWithin ∧
      standard.SameOutcomes (standard.unregister "$sum") quoteOrRead ∧
      standard.SameOutcomes (standard.unregister "$count") quoteOrRead := by
  have hagree : standard.AgreeOn (standard.unregister "$sum") quoteOrRead.keysWithin :=
    agreeOn_unregister (by decide +kernel)
  have hunquoted : standard.AgreeOn (standard.unregister "$count")
      (standard.unquotedKeys quoteOrRead) :=
    agreeOn_unregister (by decide +kernel)
  obtain ⟨hsame, hother⟩ := sameOutcomes_of_agreeOn _ _ _ hagree
  exact ⟨hagree, hsame, hother _ hunquoted⟩

end OperatorTable

end GraphQuery
