/-
# Quoted data inside expressions

`$literal` quotes its operand: the operand is data, whatever it looks like.  So the checks of
expressions have to stop at it, and none of them may come out differently when a quoted operand is
replaced by another one.  `Value.Requotes` replaces one, at any place inside a value.

The checks come out alike (`checkOperators_requoted`, `requireExpression_requoted`).  The only trace
that quoted data can leave is in the text of an error that shows the whole value.
-/
import GraphQuery.Proofs.Expression.Checks

namespace GraphQuery

/-- The operand of one `$literal` inside the value is replaced. -/
inductive Value.Requotes : Value → Value → Prop
  | quoted {v w : Value} : Requotes (.map [("$literal", v)]) (.map [("$literal", w)])
  | item {front rest : List Value} {v w : Value} (h : Requotes v w) :
      Requotes (.list (front ++ v :: rest)) (.list (front ++ w :: rest))
  | entry {before after : Row} {key : String} {v w : Value} (h : Requotes v w) :
      Requotes (.map (before ++ (key, v) :: after)) (.map (before ++ (key, w) :: after))

/-- The only key of a value that is a map with one entry. -/
def Value.tag? (v : Value) : Option String := v.singleEntry?.map Prod.fst

/-- The only key of a map stays, whatever happens to what stands under it. -/
theorem Value.tag?_replaced (before after : Row) (key : String) (v w : Value) :
    (Value.map (before ++ (key, v) :: after)).tag? =
      (Value.map (before ++ (key, w) :: after)).tag? := by
  cases before with
  | nil => cases after <;> rfl
  | cons e before => cases before <;> rfl

theorem Value.Requotes.tag?_eq {v w : Value} (h : v.Requotes w) : v.tag? = w.tag? := by
  cases h with
  | quoted => rfl
  | item _ => rfl
  | entry _ => exact tag?_replaced _ _ _ _ _

/-- What is a map stays one. -/
theorem Value.Requotes.exists_map {entries : Row} {w : Value} (h : Requotes (.map entries) w) :
    ∃ entries', w = .map entries' := by
  generalize hv : Value.map entries = v at h
  cases h with
  | quoted => exact ⟨_, rfl⟩
  | item _ => cases hv
  | entry _ => exact ⟨_, rfl⟩

/-- The errors are the same but for the text of the value that they show. -/
inductive QueryError.Alike : QueryError → QueryError → Prop
  | refl (e : QueryError) : Alike e e
  | shown (text text' : String) :
    Alike (.expression (.notAnExpression text)) (.expression (.notAnExpression text'))

theorem QueryError.Alike.trans {e e' e'' : QueryError} (h : e.Alike e') (h' : e'.Alike e'') :
    e.Alike e'' := by
  cases h with
  | refl => exact h'
  | shown v w =>
    cases h' with
    | refl => exact .shown v w
    | shown _ u => exact .shown v u

/-- Both are read, with results that look the same to `f`, or both are refused for the same reason. -/
abbrev ReadAlike {α β : Type} (f : α → β) (x y : Except QueryError α) : Prop :=
  Corresponds QueryError.Alike (fun a b => f a = f b) x y

theorem ReadAlike.of_eq {α β : Type} (f : α → β) {x y : Except QueryError α} (h : x = y) :
    ReadAlike f x y := by
  subst h
  refine Corresponds.refl QueryError.Alike.refl (fun a => ?_) x
  rfl

theorem ReadAlike.trans_alike {α β : Type} {f : α → β} {x y z : Except QueryError α}
    (h : ReadAlike f x y) (h' : ReadAlike f y z) : ReadAlike f x z :=
  Corresponds.trans (fun _ _ _ => QueryError.Alike.trans) (fun _ _ _ => Eq.trans) h h'

/-- A step that stays the same hands on the same result. -/
theorem ReadAlike.bind_same {α β γ : Type} {f : β → γ} {x : Except QueryError α}
    {g g' : α → Except QueryError β} (h : ∀ a, ReadAlike f (g a) (g' a)) :
    ReadAlike f (x >>= g) (x >>= g') := by
  refine (ReadAlike.of_eq id (rfl : x = x)).bind fun a a' ha => ?_
  obtain rfl : a = a' := ha
  exact h a

namespace OperatorTable

variable {t : OperatorTable} {v w : Value}

theorem isExpression_congr (h : v.tag? = w.tag?) : t.isExpression v = t.isExpression w := by
  unfold Value.tag? at h
  unfold isExpression
  cases hv : v.singleEntry? <;> cases hw : w.singleEntry? <;> simp_all

theorem checkTag_congr (h : v.tag? = w.tag?) : t.checkTag v = t.checkTag w := by
  unfold Value.tag? at h
  unfold checkTag
  cases hv : v.singleEntry? <;> cases hw : w.singleEntry? <;> simp_all

/-- A map with several entries is checked entry by entry. -/
theorem checkOperators_entries {entries : Row} (h : entries.length ≠ 1) :
    t.checkOperators (.map entries) = entries.forM fun e => t.checkOperators e.2 := by
  rw [← checkOperatorsEntries_eq_forM]
  match entries, h with
  | [], _ => rw [checkOperators]; simp
  | _ :: _ :: _, _ => rw [checkOperators]; simp

/-- **The check of all tags stops at quoted data.** -/
theorem checkOperators_requoted (hliteral : t.contains "$literal" = true) (h : v.Requotes w) :
    t.checkOperators v = t.checkOperators w := by
  induction h with
  | quoted => rw [checkOperators, checkOperators, if_pos ⟨rfl, hliteral⟩, if_pos ⟨rfl, hliteral⟩]
  | item _ ih =>
    rw [checkOperators, checkOperators, checkOperatorsItems_eq_forM, checkOperatorsItems_eq_forM]
    simp only [List.forM_eq_forM, List.forM_append, List.forM_cons, ih]
  | @entry before after key v w _ ih =>
    by_cases hsingle : before = [] ∧ after = []
    · obtain ⟨rfl, rfl⟩ := hsingle
      rw [List.nil_append, List.nil_append, checkOperators, checkOperators, ih]
    · have hlength : ∀ v : Value, (before ++ (key, v) :: after).length ≠ 1 := by
        intro v hlen
        rw [List.length_append, List.length_cons] at hlen
        refine hsingle ⟨List.eq_nil_of_length_eq_zero ?_, List.eq_nil_of_length_eq_zero ?_⟩
        all_goals omega
      rw [checkOperators_entries (hlength v), checkOperators_entries (hlength w)]
      simp only [List.forM_eq_forM, List.forM_append, List.forM_cons, ih]

/-- **What is required to be an expression may be required with other quoted data.** -/
theorem requireExpression_requoted (hliteral : t.contains "$literal" = true) (h : v.Requotes w) :
    ReadAlike id (t.requireExpression v) (t.requireExpression w) := by
  have hexpression : ReadAlike id (QueryError.ofExpr (t.checkExpression v))
      (QueryError.ofExpr (t.checkExpression w)) := by
    have htag := h.tag?_eq
    unfold Value.tag? at htag
    unfold checkExpression
    cases hv : v.singleEntry? with
    | none =>
      rw [hv, Option.map_none, eq_comm, Option.map_eq_none_iff] at htag
      rw [htag]
      exact .error (.shown v.text w.text)
    | some e =>
      rw [hv, Option.map_some, eq_comm, Option.map_eq_some_iff] at htag
      obtain ⟨⟨tag, operand⟩, hw, rfl⟩ := htag
      rw [hw]
      dsimp only
      split_ifs
      · exact .ok rfl
      · exact .error (.refl _)
      · exact .error (.shown v.text w.text)
  refine hexpression.bind fun _ _ _ => ?_
  exact ReadAlike.of_eq id (by rw [checkOperators_requoted hliteral h])

end OperatorTable

end GraphQuery
