/-
# How reading a query can fail

A document that is not a query is refused for its form: a clause that has not the form it should
have, an expression with a tag that has no operator, a missing part, too many levels
(`QueryError.isReading`).  The one fault that lies between the document and the schema is a type
that the schema does not have.

Below the root a query is for the target of a relationship.  In a schema whose targets all exist
such a query fails for its form only (**`readQuery_failsOnly`**), whatever its document and however
deep it stands; so a type can be unknown only at the root, where the document names it
(`exists_type_of_normalize`).

Built schemas are of this kind (`Schema.Whole.hasTargets`).
-/
import GraphQuery.Proofs.Query.NormalForm
import GraphQuery.Proofs.Schema.Building

namespace GraphQuery

/-- The error is a fault of the form of a document. -/
def QueryError.isReading : QueryError → Bool
  | missingType | missingSelect _ | invalidQuery _ | invalidAnchor _ | tooDeep _ | expression _ =>
    true
  | _ => false

/-! ## 1. Clauses -/

theorem QueryError.ofExpr_isReading {α : Type} (x : Except ExprError α) :
    FailsOnly (·.isReading) (ofExpr x) := by
  intro e he
  obtain ⟨e', -, rfl⟩ := QueryError.ofExpr_eq_error.mp he
  rfl

theorem Section.check_isReading (s : Section) (entries : Row) :
    FailsOnly (·.isReading) (s.check entries) := by
  unfold Section.check
  split
  · exact .error rfl
  · exact .ok

namespace OperatorTable

variable (t : OperatorTable)

theorem requireExpression_isReading (v : Value) :
    FailsOnly (·.isReading) (t.requireExpression v) :=
  .bind (QueryError.ofExpr_isReading _) fun _ _ => QueryError.ofExpr_isReading _

theorem readCondition_isReading (v : Value) : FailsOnly (·.isReading) (t.readCondition v) := by
  unfold readCondition
  split
  · exact .bind (QueryError.ofExpr_isReading _) fun _ _ => .pure
  · exact .bind (QueryError.ofExpr_isReading _) fun _ _ => .pure

/-- One entry of a filter fails for its form if the filters inside it do. -/
theorem readFilterEntry_isReading {key : String} {v : Value}
    (ih : ∀ w, sizeOf w ≤ sizeOf v → FailsOnly (·.isReading) (t.readFilter w)) :
    FailsOnly (·.isReading) (t.readFilterEntry key v) := by
  have hparts : ∀ tag, FailsOnly (·.isReading) (t.readParts tag v) := by
    intro tag
    cases v with
    | list items =>
      refine .mapM fun w hw => ih w (Nat.le_of_lt ?_)
      exact Value.sizeOf_lt_of_mem_items hw
    | _ => exact .error rfl
  unfold readFilterEntry
  split_ifs
  · exact (hparts key).map
  · exact (hparts key).map
  · exact (ih v (Nat.le_refl _)).map
  · exact .bind (t.requireExpression_isReading _) fun _ _ => .pure
  · exact (t.readCondition_isReading v).map

theorem readFilter_isReading (v : Value) : FailsOnly (·.isReading) (t.readFilter v) := by
  induction hn : sizeOf v using Nat.strongRecOn generalizing v with
  | _ n ih =>
  cases v with
  | map entries =>
    rw [readFilter_map]
    refine (FailsOnly.mapM fun e he => t.readFilterEntry_isReading fun w hw => ?_).map
    have hsize := Value.sizeOf_lt_of_mem_entries he
    exact ih _ (by omega) w rfl
  | _ =>
    simp only [readFilter]
    exact .error rfl

theorem readFilter?_isReading (v? : Option Value) :
    FailsOnly (·.isReading) (t.readFilter? v?) := by
  unfold readFilter?
  split
  iterate 3 exact .ok
  exact .bind (t.readFilter_isReading _) fun _ _ => .pure

end OperatorTable

theorem OrderKey.ofValue_isReading (v : Value) : FailsOnly (·.isReading) (OrderKey.ofValue v) := by
  unfold OrderKey.ofValue
  split
  · exact .ok
  · split
    · exact .ok
    · exact .error rfl
  · exact .error rfl
  · exact .error rfl

theorem readOrder_isReading (v? : Option Value) : FailsOnly (·.isReading) (readOrder v?) := by
  unfold readOrder
  split
  · exact .ok
  · exact .ok
  · exact .error rfl
  · exact .mapM fun v _ => OrderKey.ofValue_isReading v
  · exact .bind (OrderKey.ofValue_isReading _) fun _ _ => .pure

theorem readCount_isReading (key : String) (v : Value) :
    FailsOnly (·.isReading) (readCount key v) := by
  unfold readCount
  split
  · split
    · exact .ok
    · exact .error rfl
  · exact .error rfl

theorem readAnchor_isReading (key : String) (v : Value) :
    FailsOnly (·.isReading) (readAnchor key v) := by
  unfold readAnchor
  split
  · exact .ok
  · exact .error rfl

namespace Slice

theorem ofCounts_isReading (entries : Row) : FailsOnly (·.isReading) (ofCounts entries) :=
  .bind (.option_mapM fun _ _ => readCount_isReading _ _) fun _ _ =>
    .bind (.option_mapM fun _ _ => readCount_isReading _ _) fun _ _ => .pure

theorem ofEntries_isReading (entries : Row) : FailsOnly (·.isReading) (ofEntries entries) :=
  .bind (Section.slice.check_isReading entries) fun _ _ =>
    .bind (ofCounts_isReading entries) fun _ _ =>
    .bind (.option_mapM fun _ _ => readAnchor_isReading _ _) fun _ _ =>
    .bind (.option_mapM fun _ _ => readAnchor_isReading _ _) fun _ _ => .pure

theorem ofClauses_isReading (entries : Row) : FailsOnly (·.isReading) (ofClauses entries) := by
  unfold ofClauses
  split
  · exact ofCounts_isReading entries
  · split
    · exact .error rfl
    · split
      · exact .ok
      · exact ofEntries_isReading _
      · exact .error rfl

end Slice

/-! ## 2. Group levels -/

theorem readGroupKeys_isReading (v? : Option Value) :
    FailsOnly (·.isReading) (readGroupKeys v?) := by
  unfold readGroupKeys
  split
  · exact .ok
  · refine .mapM fun v _ => ?_
    split
    · exact .ok
    · exact .error rfl
  · exact .error rfl
  · exact .error rfl

namespace OperatorTable

variable (t : OperatorTable)

theorem readGroupSelection_isReading (v : Value) :
    FailsOnly (·.isReading) (t.readGroupSelection v) := by
  unfold readGroupSelection
  split
  · exact .ok
  · exact .bind (t.requireExpression_isReading _) fun _ _ => .pure

theorem readGroupItem_isReading (keys : List String) (select : Select) (v : Value) :
    FailsOnly (·.isReading) (t.readGroupItem keys select v) := by
  unfold readGroupItem
  split
  · exact .ok
  · exact .ok
  · exact .foldlM (fun _ e _ => .bind (t.readGroupSelection_isReading e.2) fun _ _ => .pure) _
  · exact .error rfl

theorem readGroupSelect_isReading (keys : List String) (v? : Option Value) :
    FailsOnly (·.isReading) (t.readGroupSelect keys v?) := by
  unfold readGroupSelect
  split
  · exact .ok
  · exact .foldlM (fun select v _ => t.readGroupItem_isReading keys select v) _
  · exact t.readGroupItem_isReading keys [] _

theorem readAggregates_isReading (v? : Option Value) :
    FailsOnly (·.isReading) (t.readAggregates v?) := by
  unfold readAggregates
  split
  · exact .ok
  · exact .bind (.forM fun e _ => t.requireExpression_isReading e.2) fun _ _ => .pure
  · exact .error rfl

end OperatorTable

namespace Dialect

variable (d : Dialect)

theorem checkDepth_isReading (depth : Nat) : FailsOnly (·.isReading) (d.checkDepth depth) := by
  unfold checkDepth
  split
  · exact .ok
  · exact .error rfl

theorem readGroups_isReading (v : Value) (depth : Nat) :
    FailsOnly (·.isReading) (d.readGroups depth v) := by
  induction hn : sizeOf v using Nat.strongRecOn generalizing v depth with
  | _ n ih =>
  cases v with
  | map entries =>
    rw [readGroups]
    refine .bind (d.checkDepth_isReading depth) fun _ _ => ?_
    refine .bind (Section.group.check_isReading entries) fun _ _ => ?_
    refine .bind (readGroupKeys_isReading _) fun keys _ => ?_
    refine .bind (d.operators.readGroupSelect_isReading keys _) fun _ _ => ?_
    refine .bind (d.operators.readAggregates_isReading _) fun _ _ => ?_
    refine .bind ?_ fun _ _ => ?_
    · rw [readGroupsAmong_eq]
      split
      · exact .ok
      · next w hw => exact ih _ (hn ▸ Value.sizeOf_lt_of_get? hw) w _ rfl
    refine .bind (d.operators.readFilter?_isReading _) fun _ _ => ?_
    refine .bind (readOrder_isReading _) fun _ _ => ?_
    exact .bind (Slice.ofClauses_isReading entries) fun _ _ => .pure
  | _ =>
    simp only [readGroups]
    exact .bind (d.checkDepth_isReading depth) fun _ _ => .error rfl

theorem readGroupsAmong_isReading (depth : Nat) (entries : Row) :
    FailsOnly (·.isReading) (d.readGroupsAmong depth entries) := by
  rw [readGroupsAmong_eq]
  split
  · exact .ok
  · exact d.readGroups_isReading _ depth

/-! ## 3. Queries for targets -/

variable {d}

/-- A type whose relationships have their targets in the schema. -/
def TargetsIn (d : Dialect) (t : ResourceType) : Prop :=
  ∀ key r, t.relationship? key = some r → ∃ target, d.schema.type? r.target = some target

/-- In the schema of the dialect every relationship has its target. -/
def HasTargets (d : Dialect) : Prop := ∀ name t, d.schema.type? name = some t → d.TargetsIn t

variable {t : ResourceType} {depth : Nat}

theorem readRelated_isReading {target : String} (h : ∃ t, d.schema.type? target = some t) :
    FailsOnly (·.isReading) (d.readRelated target depth) := by
  obtain ⟨t, ht⟩ := h
  refine .bind (d.checkDepth_isReading depth) fun _ _ => ?_
  exact .bind (.of_eq_ok (requireType_eq_ok_iff.mpr ht)) fun _ _ => .pure

theorem readSource_isReading (ht : d.TargetsIn t) (key source : String) :
    FailsOnly (·.isReading) (d.readSource t depth key source) := by
  unfold readSource
  split
  · next r hr =>
    split
    · have htarget := ht source r (ResourceType.relationship?_of_fieldKind hr)
      exact .bind (readRelated_isReading htarget) fun _ _ => .pure
    · exact .error rfl
  · exact .ok

theorem readName_isReading (ht : d.TargetsIn t) (name : String) (select : Select) :
    FailsOnly (·.isReading) (d.readName t depth name select) := by
  unfold readName
  split
  · exact .ok
  · exact .bind (readSource_isReading ht name name) fun _ _ => .pure

theorem readEntry_isReading (ht : d.TargetsIn t) (key : String) (v : Value) :
    FailsOnly (·.isReading) (d.readEntry t depth key v) := by
  unfold readEntry
  split
  · exact .bind (readSource_isReading ht key _) fun _ _ => .pure
  · split
    · exact .bind (QueryError.ofExpr_isReading _) fun _ _ => .pure
    · split
      · exact .ok
      · exact .bind (QueryError.ofExpr_isReading _) fun _ _ => .error rfl
  · exact .error rfl

/-- Whatever stands for a query for a type of the schema, it is refused for its form only. -/
def FailsForForm (d : Dialect) (v : Value) : Prop :=
  ∀ target depth, (∃ t, d.schema.type? target = some t) →
    FailsOnly (·.isReading) (d.readQuery (some target) depth v)

theorem readSelection_isReading (ht : d.TargetsIn t) {v : Value} (ih : d.FailsForForm v)
    (key : String) : FailsOnly (·.isReading) (d.readSelection t depth key v) := by
  refine .bind (readEntry_isReading ht key v) fun s? hs? => ?_
  rcases readEntry_eq_ok hs? with ⟨s, rfl, -⟩ | ⟨r, rfl, hr⟩
  · exact .pure
  · exact .bind (ih r.target (depth + 1) (ht key r hr)) fun _ _ => .pure

theorem readSelectEntries_isReading (ht : d.TargetsIn t) {entries : List (String × Value)}
    (ih : ∀ e ∈ entries, d.FailsForForm e.2) (select : Select) :
    FailsOnly (·.isReading) (d.readSelectEntries t depth entries select) := by
  rw [readSelectEntries_eq_foldlM]
  exact .foldlM (fun _ e he => .bind (readSelection_isReading ht (ih e he) e.1) fun _ _ => .pure) _

/-- A selection is refused for its form only if the queries inside it are. -/
theorem readSelect_isReading (ht : d.TargetsIn t) {v : Value}
    (ih : ∀ w, sizeOf w < sizeOf v → d.FailsForForm w) :
    FailsOnly (·.isReading) (d.readSelect t depth v) := by
  cases v with
  | string name =>
    rw [readSelect]
    exact readName_isReading ht name []
  | list items =>
    rw [readSelect, readSelectItems_eq_foldlM]
    refine .foldlM (fun select item hitem => ?_) _
    have hsize := Value.sizeOf_lt_of_mem_items hitem
    cases item with
    | string name => exact readName_isReading ht name select
    | map entries =>
      refine readSelectEntries_isReading ht (fun e he => ih e.2 ?_) select
      exact Nat.lt_trans (Value.sizeOf_lt_of_mem_entries he) hsize
    | _ => exact .error rfl
  | map entries =>
    rw [readSelect]
    exact readSelectEntries_isReading ht
      (fun e he => ih e.2 (Value.sizeOf_lt_of_mem_entries he)) []
  | _ =>
    simp only [readSelect]
    exact .error rfl

theorem readId_isReading (depth : Nat) (entries : Row) :
    FailsOnly (·.isReading) (readId depth entries) := by
  unfold readId
  split
  · exact .ok
  · exact .ok
  · split
    · exact .error rfl
    · split
      · exact .ok
      · exact .error rfl

theorem readTypeName_isReading (expected : Option String) (entries : Row) :
    FailsOnly (·.isReading) (readTypeName expected entries) := by
  unfold readTypeName
  split
  · split
    · exact .ok
    · exact .error rfl
  · exact .ok
  · exact .error rfl
  · exact .ok
  · exact .error rfl

theorem requireSelect_isReading (typeName : String) (groups : List Group)
    (select? : Option Select) : FailsOnly (·.isReading) (requireSelect typeName groups select?) := by
  unfold requireSelect
  split
  · exact .ok
  · split
    · exact .error rfl
    · exact .ok

/-- After its type was found, a query is refused for its form only if the queries inside it are. -/
theorem readQuery_isReading_of_type (hd : d.HasTargets) {expected : Option String}
    {entries : List (String × Value)}
    (ih : ∀ w, sizeOf w < sizeOf (Value.map entries) → d.FailsForForm w)
    (htype : ∀ name, readTypeName expected entries = .ok name →
      ∃ t, d.schema.type? name = some t) :
    FailsOnly (·.isReading) (d.readQuery expected depth (.map entries)) := by
  rw [readQuery]
  refine .bind (d.checkDepth_isReading depth) fun _ _ => ?_
  refine .bind (Section.query.check_isReading entries) fun _ _ => ?_
  refine .bind (readTypeName_isReading expected entries) fun name hname => ?_
  obtain ⟨t, ht⟩ := htype name hname
  refine .bind (.of_eq_ok (requireType_eq_ok_iff.mpr ht)) fun t' ht' => ?_
  obtain rfl : t = t' := Option.some.inj (ht.symm.trans (requireType_eq_ok_iff.mp ht'))
  refine .bind (readId_isReading depth entries) fun _ _ => ?_
  refine .bind (d.readGroupsAmong_isReading depth entries) fun groups _ => ?_
  refine .bind ?_ fun select? _ => ?_
  · rw [readSelectAmong_eq]
    refine .option_mapM fun v hv => readSelect_isReading (hd name t ht) fun w hw => ih w ?_
    exact Nat.lt_trans hw (Value.sizeOf_lt_of_get? hv)
  refine .bind (requireSelect_isReading name groups select?) fun _ _ => ?_
  refine .bind (d.operators.readFilter?_isReading _) fun _ _ => ?_
  refine .bind (readOrder_isReading _) fun _ _ => ?_
  exact .bind (Slice.ofClauses_isReading entries) fun _ _ => .pure

/-- **A query below the root is refused for its form only.** -/
theorem readQuery_failsOnly (hd : d.HasTargets) (v : Value) : d.FailsForForm v := by
  induction hn : sizeOf v using Nat.strongRecOn generalizing v with
  | _ n ih =>
  intro target depth htarget
  cases v with
  | map entries =>
    refine readQuery_isReading_of_type hd (fun w hw => ih _ (hn ▸ hw) w rfl) fun name hname => ?_
    rw [readTypeName_eq_target hname]
    exact htarget
  | _ =>
    simp only [readQuery]
    exact .bind (d.checkDepth_isReading depth) fun _ _ => .error rfl

theorem get?_type_of_readTypeName {entries : Row} {name : String}
    (h : readTypeName none entries = .ok name) :
    Keyed.get? "type" entries = some (.string name) := by
  unfold readTypeName at h
  split at h
  · next hexpected => cases hexpected
  · next hget _ => rw [hget, Except.ok.inj h]
  · cases h
  · next hexpected => cases hexpected
  · cases h

/-- **A type is unknown only if the root names it.** -/
theorem exists_type_of_normalize (hd : d.HasTargets) {document : Value} {name : String}
    (h : d.normalize document = .error (.unknownType name)) :
    document.get? "type" = some (.string name) ∧ d.schema.type? name = none := by
  have hread : d.readQuery none 1 document = .error (.unknownType name) := by
    rcases bind_eq_error.mp h with h | ⟨q, -, h⟩
    · exact h
    · split at h
      · cases h
      · cases h
  cases document with
  | map entries =>
    -- the checks before the type, and the reading of its name, find faults of form only
    have hform : ∀ {α : Type} {x : Except QueryError α}, FailsOnly (·.isReading) x →
        x ≠ .error (.unknownType name) := fun hx herror => Bool.false_ne_true (hx _ herror)
    have hsteps := hread
    rw [readQuery] at hsteps
    replace hsteps := (bind_eq_error.mp hsteps).resolve_left (hform (d.checkDepth_isReading 1))
    obtain ⟨-, -, hsteps⟩ := hsteps
    replace hsteps := (bind_eq_error.mp hsteps).resolve_left
      (hform (Section.query.check_isReading entries))
    obtain ⟨-, -, hsteps⟩ := hsteps
    replace hsteps := (bind_eq_error.mp hsteps).resolve_left
      (hform (readTypeName_isReading none entries))
    obtain ⟨name', htype, hsteps⟩ := hsteps
    cases hfound : d.schema.type? name' with
    | some t =>
      -- with a type that is found nothing but faults of form is left
      refine absurd hread (hform (readQuery_isReading_of_type hd
        (fun w _ => readQuery_failsOnly hd w) fun other hother => ?_))
      obtain rfl := Except.ok.inj (htype.symm.trans hother)
      exact ⟨t, hfound⟩
    | none =>
      have hrequire : d.schema.requireType name' = .error (.unknownType name') := by
        rw [Schema.requireType, hfound]
      rw [hrequire, error_bind] at hsteps
      obtain rfl := QueryError.unknownType.inj (Except.error.inj hsteps)
      exact ⟨get?_type_of_readTypeName htype, hfound⟩
  | _ =>
    simp only [readQuery] at hread
    exact absurd (FailsOnly.bind (d.checkDepth_isReading 1) (fun _ _ => .error rfl) _ hread)
      Bool.false_ne_true

end Dialect

/-- **In a built schema all targets exist.** -/
theorem Schema.Whole.hasTargets {d : Dialect} (h : d.schema.Whole) : d.HasTargets := by
  intro name t ht key r hr
  obtain ⟨target, htarget, -⟩ := h.target name t ht (key, r) (Keyed.mem_of_get?_eq_some hr)
  exact ⟨target, htarget⟩

end GraphQuery
