/-
# The normal form of queries

A query that was read is not just any `Query`: its selections are in key order, what stands where an
expression is required is one, a selected name is no relationship, a sub-query stands under the
relationship it is for, and no level is deeper than the dialect allows.  `QueryOf.Normal` collects
these facts.  It does not mention the reader, and it is what the static checks and the canonical
document are about.

* The parts are first: `Condition.Normal` and `Filter.Normal`, `Slice.Normal`, `GroupOf.Normal`.
* `Selection.Normal` goes down the sub-queries, one level deeper with each.
* **`readQuery_normal`: every query that is read is normal.**  The proof is an induction on the size
  of the document; for each clause there is a lemma of its own.
-/
import GraphQuery.Proofs.Expression.Checks
import GraphQuery.Proofs.Query.Reading

namespace GraphQuery

/-! ## 1. Normal clauses -/

/-- A condition is an expression only where it looks like one, and no unknown tag stands for data. -/
def Condition.Normal (t : OperatorTable) : Condition → Prop
  | .equals v => t.isExpression v = false ∧ t.checkTag v = .ok ()
  | .expression e => t.Accepts e

/-- The tags that combine filters. -/
def Filter.connectives : List String := ["$and", "$or", "$not"]

/-- No path of a filter has the form of a tag, and an expression is not one that combines filters. -/
inductive Filter.Normal (t : OperatorTable) : Filter → Prop
  | conjunction {parts : List Filter} (h : ∀ f ∈ parts, Normal t f) : Normal t (.conjunction parts)
  | disjunction {parts : List Filter} (h : ∀ f ∈ parts, Normal t f) : Normal t (.disjunction parts)
  | negation {part : Filter} (h : Normal t part) : Normal t (.negation part)
  | field {path : String} {c : Condition} (hpath : isTag path = false) (hc : c.Normal t) :
      Normal t (.field path c)
  | expression {tag : String} {operand : Value} (htag : isTag tag = true)
      (hconn : tag ∉ Filter.connectives) (h : t.Accepts (.map [(tag, operand)])) :
      Normal t (.expression (.map [(tag, operand)]))

/-- The counts fit whole numbers of 64 bits with a sign. -/
structure Slice.Normal (s : Slice) : Prop where
  limit : ∀ n, s.limit = some n → 0 ≤ n.toInt64
  offset : ∀ n, s.offset = some n → 0 ≤ n.toInt64

/-- A group level selects names and expressions only. -/
def Selection.GroupNormal (t : OperatorTable) : Selection → Prop
  | .field _ => True
  | .expression e => t.Accepts e
  | .subquery _ => False

/-- A group level as it is read. -/
structure GroupOf.Normal (t : OperatorTable) (g : Group) : Prop where
  sorted : Keyed.Sorted g.select
  select : ∀ e ∈ g.select, e.2.GroupNormal t
  aggregates : ∀ e ∈ g.aggregates, t.Accepts e.2
  filter : ∀ f, g.filter = some f → f.Normal t
  slice : g.slice.Normal

/-- Group levels as they are read, the first one at a depth and each of the others one deeper. -/
def Dialect.GroupsNormal (d : Dialect) : Nat → List Group → Prop
  | _, [] => True
  | depth, g :: inner =>
    depth ≤ d.maxDepth ∧ g.Normal d.operators ∧ Dialect.GroupsNormal d (depth + 1) inner

/-! ## 2. Normal queries -/

/-- The clauses of a query as they are read at a depth; what makes its entries is left open. -/
structure QueryOf.ClausesNormal (d : Dialect) (depth : Nat) (q : Query) : Prop where
  depth_le : depth ≤ d.maxDepth
  sorted : Keyed.Sorted q.select
  filter : ∀ f, q.filter = some f → f.Normal d.operators
  slice : q.slice.Normal
  groups : d.GroupsNormal depth q.groups

/-- The selection under a key, on a type, in a query at a depth.  A sub-query names no id and asks
for the target of the relationship under whose name it stands. -/
inductive Selection.Normal (d : Dialect) : ResourceType → Nat → String → Selection → Prop
  | field {t : ResourceType} {depth : Nat} {key source : String}
      (h : ∀ r, t.fieldKind source ≠ .relationship r) : Normal d t depth key (.field source)
  | expression {t : ResourceType} {depth : Nat} {key : String} {e : Value}
      (h : d.operators.Accepts e) : Normal d t depth key (.expression e)
  | subquery {t target : ResourceType} {depth : Nat} {key : String} {q : Query} {r : Relationship}
      (hr : t.relationship? key = some r) (htype : q.typeName = r.target) (hid : q.id = none)
      (htarget : d.schema.type? q.typeName = some target) (hq : q.ClausesNormal d (depth + 1))
      (hselect : ∀ e ∈ q.select, Normal d target (depth + 1) e.1 e.2) :
      Normal d t depth key (.subquery q)

/-- A query on a type as it is read at a depth. -/
structure QueryOf.Normal (d : Dialect) (t : ResourceType) (depth : Nat) (q : Query) : Prop where
  type : d.schema.type? q.typeName = some t
  clauses : q.ClausesNormal d depth
  select : ∀ e ∈ q.select, e.2.Normal d t depth e.1

/-! ## 3. Filters are read in normal form -/

namespace OperatorTable

variable {t : OperatorTable}

theorem readCondition_normal {v : Value} {c : Condition} (h : t.readCondition v = .ok c) :
    c.Normal t := by
  unfold readCondition at h
  split at h
  · next he =>
    rw [check_bind_eq_ok, QueryError.ofExpr_eq_ok, pure_eq_ok] at h
    obtain ⟨hops, rfl⟩ := h
    exact ⟨he, hops⟩
  · next he =>
    rw [check_bind_eq_ok, QueryError.ofExpr_eq_ok, pure_eq_ok] at h
    obtain ⟨htag, rfl⟩ := h
    exact ⟨Bool.eq_false_iff.mpr he, htag⟩

/-- One entry is read in normal form if the filters inside it are. -/
theorem readFilterEntry_normal {key : String} {v : Value} {f : Filter}
    (ih : ∀ w g, sizeOf w ≤ sizeOf v → t.readFilter w = .ok g → g.Normal t)
    (h : t.readFilterEntry key v = .ok f) : f.Normal t := by
  have hparts : ∀ tag parts, t.readParts tag v = .ok parts → ∀ g ∈ parts, g.Normal t := by
    intro tag parts hp g hg
    cases v with
    | list items =>
      obtain ⟨w, hw, hwg⟩ := exists_of_mem_mapM hp hg
      exact ih w g (Nat.le_of_lt (Value.sizeOf_lt_of_mem_items hw)) hwg
    | _ => exact absurd hp (by simp [readParts])
  unfold readFilterEntry at h
  split_ifs at h with hand hor hnot htag
  · obtain ⟨parts, hp, rfl⟩ := map_eq_ok.mp h
    exact .conjunction (hparts key parts hp)
  · obtain ⟨parts, hp, rfl⟩ := map_eq_ok.mp h
    exact .disjunction (hparts key parts hp)
  · obtain ⟨part, hp, rfl⟩ := map_eq_ok.mp h
    exact .negation (ih v part (Nat.le_refl _) hp)
  · rw [readRowTest, check_bind_eq_ok, requireExpression_eq_ok_iff, pure_eq_ok] at h
    obtain ⟨haccepts, rfl⟩ := h
    refine .expression htag ?_ haccepts
    simp only [Filter.connectives, List.mem_cons, List.not_mem_nil, or_false, not_or]
    exact ⟨hand, hor, hnot⟩
  · obtain ⟨c, hc, rfl⟩ := map_eq_ok.mp h
    exact .field (Bool.eq_false_iff.mpr htag) (readCondition_normal hc)

theorem ofParts_normal {parts : List Filter}
    (h : ∀ f ∈ parts, f.Normal t) : (Filter.ofParts parts).Normal t := by
  unfold Filter.ofParts
  split
  · exact h _ List.mem_cons_self
  · exact .conjunction h

/-- **Every filter that is read is normal.** -/
theorem readFilter_normal {v : Value} {f : Filter} (h : t.readFilter v = .ok f) : f.Normal t := by
  induction hn : sizeOf v using Nat.strongRecOn generalizing v f with
  | _ n ih =>
  cases v with
  | map entries =>
    rw [readFilter_map, map_eq_ok] at h
    obtain ⟨parts, hparts, rfl⟩ := h
    refine ofParts_normal fun g hg => ?_
    obtain ⟨e, he, hge⟩ := exists_of_mem_mapM hparts hg
    have hsize := Value.sizeOf_lt_of_mem_entries he
    exact readFilterEntry_normal (fun w g' hw hg' => ih _ (by omega) hg' rfl) hge
  | _ => exact absurd h (by simp [readFilter])

theorem readFilter?_normal {v? : Option Value} {f? : Option Filter}
    (h : t.readFilter? v? = .ok f?) {f : Filter} (hf : f? = some f) : f.Normal t := by
  subst hf
  unfold readFilter? at h
  split at h
  iterate 3 exact absurd h (by simp)
  rw [bind_eq_ok] at h
  obtain ⟨g, hg, hgf⟩ := h
  rw [pure_eq_ok] at hgf
  exact Option.some.inj hgf ▸ readFilter_normal hg

end OperatorTable

/-! ## 4. So are slices -/

theorem readCount_nonneg {key : String} {v : Value} {n : UInt64} (h : readCount key v = .ok n) :
    0 ≤ n.toInt64 := by
  unfold readCount at h
  split at h
  · split at h
    · next hi =>
      rw [← Except.ok.inj h, Int64.toInt64_toUInt64]
      exact hi
    · exact absurd h (by simp)
  · exact absurd h (by simp)

namespace Slice

theorem ofCounts_normal {entries : Row} {s : Slice} (h : ofCounts entries = .ok s) :
    s.Normal := by
  simp only [ofCounts, bind_eq_ok, pure_eq_ok] at h
  obtain ⟨limit, hlimit, offset, hoffset, rfl⟩ := h
  have hcount : ∀ {key : String} {c : Option UInt64},
      (Keyed.get? key entries).mapM (readCount key) = .ok c → ∀ n, c = some n → 0 ≤ n.toInt64 := by
    intro key c hc n hn
    rcases option_mapM_eq_ok_iff.mp hc with ⟨-, hnone⟩ | ⟨v, m, -, hm, hsome⟩
    · exact absurd (hn.symm.trans hnone) (by simp)
    · rw [Option.some.inj (hn.symm.trans hsome)]
      exact readCount_nonneg hm
  exact ⟨hcount hlimit, hcount hoffset⟩

/-- Anchors do not matter for the counts of a slice. -/
theorem ofEntries_normal {entries : Row} {s : Slice} (h : ofEntries entries = .ok s) :
    s.Normal := by
  simp only [ofEntries, bind_eq_ok, pure_eq_ok] at h
  obtain ⟨-, -, counts, hcounts, before, -, after, -, rfl⟩ := h
  exact ⟨(ofCounts_normal hcounts).limit, (ofCounts_normal hcounts).offset⟩

theorem normal_empty : Normal {} := ⟨by simp, by simp⟩

theorem ofClauses_normal {entries : Row} {s : Slice} (h : ofClauses entries = .ok s) :
    s.Normal := by
  unfold ofClauses at h
  split at h
  · exact ofCounts_normal h
  · split_ifs at h
    split at h
    · exact Except.ok.inj h ▸ normal_empty
    · exact ofEntries_normal h
    · exact absurd h (by simp)

end Slice

/-! ## 5. So are selections in group levels -/

/-- The entries are in key order, and what makes each of them has a property. -/
structure Select.Fits (P : String → Selection → Prop) (select : Select) : Prop where
  sorted : Keyed.Sorted select
  all : ∀ e ∈ select, P e.1 e.2

namespace Select.Fits

variable {P : String → Selection → Prop} {select : Select}

theorem nil : Select.Fits P [] := ⟨List.Pairwise.nil, by simp⟩

theorem insert {key : String} {s : Selection} (h : Select.Fits P select) (hs : P key s) :
    Select.Fits P (Keyed.insert key s select) := by
  refine ⟨h.sorted.insert, fun e he => ?_⟩
  rcases Keyed.mem_insert he with rfl | he
  · exact hs
  · exact h.all e he

theorem overlay {added : Select} (h : Select.Fits P select) (hadded : ∀ e ∈ added, P e.1 e.2) :
    Select.Fits P (Keyed.overlay select added) := by
  refine ⟨h.sorted.overlay added, fun e he => ?_⟩
  rcases Keyed.mem_overlay he with he | he
  · exact h.all e he
  · exact hadded e he

/-- Fields under their own names are added one after the other. -/
theorem insertFields {names : List String} (h : Select.Fits P select)
    (hnames : ∀ name ∈ names, P name (.field name)) :
    Select.Fits P
      (names.foldl (fun select name => Keyed.insert name (.field name) select) select) := by
  induction names generalizing select with
  | nil => exact h
  | cons name rest ih =>
    obtain ⟨hname, hrest⟩ := List.forall_mem_cons.mp hnames
    exact ih (h.insert hname) hrest

theorem ofFields {names : List String} (h : ∀ name ∈ names, P name (.field name)) :
    Select.Fits P (Select.ofFields names) := by
  refine overlay nil fun e he => ?_
  obtain ⟨name, hname, rfl⟩ := List.mem_map.mp he
  exact h name hname

end Select.Fits

namespace OperatorTable

variable {t : OperatorTable}

theorem readGroupSelection_normal {v : Value} {s : Selection}
    (h : t.readGroupSelection v = .ok s) : s.GroupNormal t := by
  unfold readGroupSelection at h
  split at h
  · exact Except.ok.inj h ▸ trivial
  · rw [check_bind_eq_ok, requireExpression_eq_ok_iff, pure_eq_ok] at h
    obtain ⟨haccepts, rfl⟩ := h
    exact haccepts

/-- One more item keeps what holds of the entries before it. -/
theorem readGroupItem_fits {keys : List String} {select select' : Select} {v : Value}
    (hfits : Select.Fits (fun _ s => s.GroupNormal t) select)
    (h : t.readGroupItem keys select v = .ok select') :
    Select.Fits (fun _ s => s.GroupNormal t) select' := by
  have hkeys : Select.Fits (fun _ s => s.GroupNormal t) (Select.ofFields keys) :=
    .ofFields fun _ _ => trivial
  unfold readGroupItem at h
  split at h
  · exact Except.ok.inj h ▸ hfits.overlay hkeys.all
  · exact Except.ok.inj h ▸ hfits.insert trivial
  · refine foldlM_invariant h hfits fun select e select' _ hfits he => ?_
    rw [bind_eq_ok] at he
    obtain ⟨s, hs, heq⟩ := he
    exact pure_eq_ok.mp heq ▸ hfits.insert (readGroupSelection_normal hs)
  · exact absurd h (by simp)

theorem readGroupSelect_fits {keys : List String} {v? : Option Value} {select : Select}
    (h : t.readGroupSelect keys v? = .ok select) :
    Select.Fits (fun _ s => s.GroupNormal t) select := by
  unfold readGroupSelect at h
  split at h
  · exact Except.ok.inj h ▸ Select.Fits.ofFields fun _ _ => trivial
  · exact foldlM_invariant h .nil fun _ _ _ _ hfits hitem => readGroupItem_fits hfits hitem
  · exact readGroupItem_fits .nil h

theorem readAggregates_accepts {v? : Option Value} {aggregates : Row}
    (h : t.readAggregates v? = .ok aggregates) : ∀ e ∈ aggregates, t.Accepts e.2 := by
  unfold readAggregates at h
  split at h
  · exact Except.ok.inj h ▸ (by simp)
  · rw [check_bind_eq_ok, forM_eq_ok_iff, pure_eq_ok] at h
    obtain ⟨haccepts, rfl⟩ := h
    exact fun e he => requireExpression_eq_ok_iff.mp (haccepts e he)
  · exact absurd h (by simp)

end OperatorTable

namespace Dialect

variable {d : Dialect}

/-- Group levels are read in normal form. -/
theorem readGroups_normal {v : Value} {depth : Nat} {groups : List Group}
    (h : d.readGroups depth v = .ok groups) : d.GroupsNormal depth groups := by
  induction hn : sizeOf v using Nat.strongRecOn generalizing v depth groups with
  | _ n ih =>
  obtain ⟨entries, g, inner, rfl, rfl⟩ := exists_cons_of_readGroups h
  obtain ⟨hdepth, -, -, hselect, haggregates, hinner, hfilter, -, hslice⟩ :=
    readGroups_map_eq_ok_iff.mp h
  have hfits := OperatorTable.readGroupSelect_fits hselect
  refine ⟨hdepth, ⟨hfits.sorted, hfits.all, OperatorTable.readAggregates_accepts haggregates,
    fun f => OperatorTable.readFilter?_normal hfilter, Slice.ofClauses_normal hslice⟩, ?_⟩
  rw [readGroupsAmong_eq] at hinner
  split at hinner
  · exact Except.ok.inj hinner ▸ trivial
  · next w hw => exact ih _ (hn ▸ Value.sizeOf_lt_of_get? hw) hinner rfl

end Dialect

/-! ## 6. So are queries -/

namespace ResourceType

variable {t : ResourceType}

/-- What a name means as a relationship, it means in the table of relationships. -/
theorem relationship?_of_fieldKind {name : String} {r : Relationship}
    (h : t.fieldKind name = .relationship r) : t.relationship? name = some r := by
  unfold fieldKind at h
  split_ifs at h
  split at h
  · exact absurd h (by simp)
  · split at h
    · next hr => rw [hr, FieldKind.relationship.inj h]
    · exact absurd h (by simp)

theorem fieldKind_idAttribute_ne (r : Relationship) :
    t.fieldKind t.idAttribute ≠ .relationship r := by
  simp [fieldKind, isIdName]

theorem fieldKind_attribute_ne {name : String} (h : name ∈ t.attributeNames) (r : Relationship) :
    t.fieldKind name ≠ .relationship r := by
  unfold fieldKind
  split_ifs
  · simp
  · cases ha : t.attribute? name with
    | none => exact absurd h (Keyed.get?_eq_none_iff.mp ha)
    | some a => simp

end ResourceType

namespace Dialect

variable {d : Dialect} {t : ResourceType} {depth : Nat}

theorem withAllFields_fits {select : Select} (h : Select.Fits (Selection.Normal d t depth) select) :
    Select.Fits (Selection.Normal d t depth) (withAllFields t select) := by
  have hid : Select.Fits (Selection.Normal d t depth)
      (Keyed.insert t.idAttribute (.field t.idAttribute) select) :=
    h.insert (.field t.fieldKind_idAttribute_ne)
  refine hid.insertFields fun name hname => ?_
  exact .field (ResourceType.fieldKind_attribute_ne hname)

/-- The query for everything of the resources of a type is normal. -/
theorem readRelated_normal {target : String} {q : Query} (h : d.readRelated target depth = .ok q) :
    q.typeName = target ∧ q.id = none ∧ ∃ t, q.Normal d t depth := by
  rw [readRelated, check_bind_eq_ok, checkDepth_eq_ok_iff, bind_eq_ok] at h
  obtain ⟨hdepth, t, ht, hq⟩ := h
  rw [pure_eq_ok] at hq
  subst hq
  have hfits : Select.Fits (Selection.Normal d t depth) (withAllFields t []) :=
    withAllFields_fits .nil
  refine ⟨rfl, rfl, t, requireType_eq_ok_iff.mp ht, ?_, hfits.all⟩
  exact ⟨hdepth, hfits.sorted, by simp, Slice.normal_empty, trivial⟩

/-- A query for the target of a relationship may stand under its name. -/
theorem normal_subquery {target : ResourceType} {key : String} {q : Query} {r : Relationship}
    (hr : t.relationship? key = some r) (htype : q.typeName = r.target) (hid : q.id = none)
    (hq : q.Normal d target (depth + 1)) : Selection.Normal d t depth key (.subquery q) :=
  .subquery hr htype hid hq.type hq.clauses hq.select

theorem readSource_normal {key source : String} {s : Selection}
    (h : d.readSource t depth key source = .ok s) : s.Normal d t depth key := by
  unfold readSource at h
  split at h
  · next r hr =>
    split_ifs at h with hkey
    rw [bind_eq_ok] at h
    obtain ⟨q, hq, hs⟩ := h
    obtain ⟨htype, hid, target, hnormal⟩ := readRelated_normal hq
    rw [← pure_eq_ok.mp hs]
    exact normal_subquery (hkey ▸ ResourceType.relationship?_of_fieldKind hr) htype hid hnormal
  · next hne => exact Except.ok.inj h ▸ .field hne

theorem readName_fits {name : String} {select select' : Select}
    (hfits : Select.Fits (Selection.Normal d t depth) select)
    (h : d.readName t depth name select = .ok select') :
    Select.Fits (Selection.Normal d t depth) select' := by
  unfold readName at h
  split_ifs at h
  · exact Except.ok.inj h ▸ withAllFields_fits hfits
  · rw [bind_eq_ok] at h
    obtain ⟨s, hs, hselect⟩ := h
    exact pure_eq_ok.mp hselect ▸ hfits.insert (readSource_normal hs)

/-- An entry is a normal selection, or calls for a query under a relationship. -/
theorem readEntry_eq_ok {key : String} {v : Value} {s? : Selection ⊕ Relationship}
    (h : d.readEntry t depth key v = .ok s?) :
    (∃ s, s? = .inl s ∧ s.Normal d t depth key) ∨
      ∃ r, s? = .inr r ∧ t.relationship? key = some r := by
  unfold readEntry at h
  split at h
  · rw [bind_eq_ok] at h
    obtain ⟨s, hs, hinl⟩ := h
    exact Or.inl ⟨s, (pure_eq_ok.mp hinl).symm, readSource_normal hs⟩
  · split at h
    · next he =>
      rw [check_bind_eq_ok, QueryError.ofExpr_eq_ok, pure_eq_ok] at h
      exact Or.inl ⟨_, h.2.symm, .expression ⟨he, h.1⟩⟩
    · split at h
      · next r hr => exact Or.inr ⟨r, (Except.ok.inj h).symm, hr⟩
      · rw [check_bind_eq_ok] at h
        exact absurd h.2 (by simp)
  · exact absurd h (by simp)

/-- What is read from a document as a query, at any depth from the root on, is normal. -/
def ReadsNormal (d : Dialect) (v : Value) : Prop :=
  ∀ expected depth q, 1 ≤ depth → d.readQuery expected depth v = .ok q →
    (∃ t, q.Normal d t depth) ∧ (∀ target, expected = some target → q.typeName = target) ∧
      (1 < depth → q.id = none)

theorem readSelection_normal {key : String} {v : Value} {s : Selection} (hpos : 1 ≤ depth)
    (ih : d.ReadsNormal v) (h : d.readSelection t depth key v = .ok s) :
    s.Normal d t depth key := by
  rw [readSelection, bind_eq_ok] at h
  obtain ⟨s?, hentry, hs⟩ := h
  rcases readEntry_eq_ok hentry with ⟨s', rfl, hnormal⟩ | ⟨r, rfl, hr⟩
  · exact pure_eq_ok.mp hs ▸ hnormal
  · rw [bind_eq_ok] at hs
    obtain ⟨q, hq, hsub⟩ := hs
    obtain ⟨⟨target, hnormal⟩, htype, hid⟩ := ih _ _ q (Nat.le_add_left 1 depth) hq
    rw [← pure_eq_ok.mp hsub]
    exact normal_subquery hr (htype _ rfl) (hid (Nat.lt_add_of_pos_left hpos)) hnormal

theorem readSelectEntries_fits {entries : List (String × Value)} {select select' : Select}
    (hpos : 1 ≤ depth) (ih : ∀ e ∈ entries, d.ReadsNormal e.2)
    (hfits : Select.Fits (Selection.Normal d t depth) select)
    (h : d.readSelectEntries t depth entries select = .ok select') :
    Select.Fits (Selection.Normal d t depth) select' := by
  rw [readSelectEntries_eq_foldlM] at h
  refine foldlM_invariant h hfits fun select e select' he hfits hstep => ?_
  obtain ⟨s, hs, rfl⟩ := putEntry_eq_ok_iff.mp hstep
  exact hfits.insert (readSelection_normal hpos (ih e he) hs)

/-- The selection of a clause is normal if the queries inside it are. -/
theorem readSelect_fits {v : Value} {select : Select} (hpos : 1 ≤ depth)
    (ih : ∀ w, sizeOf w < sizeOf v → d.ReadsNormal w)
    (h : d.readSelect t depth v = .ok select) :
    Select.Fits (Selection.Normal d t depth) select := by
  cases v with
  | string name =>
    rw [readSelect] at h
    exact readName_fits .nil h
  | list items =>
    rw [readSelect, readSelectItems_eq_foldlM] at h
    refine foldlM_invariant h .nil fun select item select' hitem hfits hstep => ?_
    have hsize := Value.sizeOf_lt_of_mem_items hitem
    cases item with
    | string name => exact readName_fits hfits hstep
    | map entries =>
      refine readSelectEntries_fits hpos (fun e he => ih e.2 ?_) hfits hstep
      exact Nat.lt_trans (Value.sizeOf_lt_of_mem_entries he) hsize
    | _ => exact absurd hstep (by simp [readSelectItem])
  | map entries =>
    rw [readSelect] at h
    exact readSelectEntries_fits hpos
      (fun e he => ih e.2 (Value.sizeOf_lt_of_mem_entries he)) .nil h
  | _ => exact absurd h (by simp [readSelect])

theorem readTypeName_eq_target {target name : String} {entries : Row}
    (h : readTypeName (some target) entries = .ok name) : name = target := by
  unfold readTypeName at h
  split at h
  · next _ target' _ htarget =>
    obtain rfl := Option.some.inj htarget
    split_ifs at h with hname
    exact (Except.ok.inj h).symm.trans hname
  · next htarget => exact absurd htarget (by simp)
  · exact absurd h (by simp)
  · next htarget => exact (Except.ok.inj h).symm.trans (Option.some.inj htarget).symm
  · next htarget => exact absurd htarget (by simp)

theorem readId_eq_none {entries : Row} {id : Option String} (hdepth : 1 < depth)
    (h : readId depth entries = .ok id) : id = none := by
  unfold readId at h
  split at h
  · exact (Except.ok.inj h).symm
  · exact (Except.ok.inj h).symm
  · simp [hdepth] at h

/-- The selection of a query is read from its clause, or empty. -/
theorem readSelectAmong_fits {entries : List (String × Value)} {typeName : String}
    {groups : List Group} {select? : Option Select} {select : Select} (hpos : 1 ≤ depth)
    (ih : ∀ w, sizeOf w < sizeOf (Value.map entries) → d.ReadsNormal w)
    (h? : d.readSelectAmong t depth entries = .ok select?)
    (h : requireSelect typeName groups select? = .ok select) :
    Select.Fits (Selection.Normal d t depth) select := by
  rw [readSelectAmong_eq] at h?
  rcases option_mapM_eq_ok_iff.mp h? with ⟨-, rfl⟩ | ⟨v, s, hv, hs, rfl⟩
  · rw [requireSelect] at h
    split_ifs at h
    exact Except.ok.inj h ▸ .nil
  · rw [requireSelect] at h
    refine Except.ok.inj h ▸ readSelect_fits hpos (fun w hw => ih w ?_) hs
    exact Nat.lt_trans hw (Value.sizeOf_lt_of_get? hv)

/-- **Every query that is read is normal.** -/
theorem readQuery_normal (v : Value) : d.ReadsNormal v := by
  induction hn : sizeOf v using Nat.strongRecOn generalizing v with
  | _ n ih =>
  intro expected depth q hpos h
  obtain ⟨entries, rfl⟩ := exists_map_of_readQuery h
  obtain ⟨hdepth, -, htype, ⟨t, select?, ht, hselect?, hselect⟩, hid, hgroups, hfilter, -,
    hslice⟩ := readQuery_map_eq_ok_iff.mp h
  have hfits : Select.Fits (Selection.Normal d t depth) q.select :=
    readSelectAmong_fits hpos (fun w hw => ih _ (hn ▸ hw) w rfl) hselect? hselect
  have hlevels : d.GroupsNormal depth q.groups := by
    rw [readGroupsAmong_eq] at hgroups
    split at hgroups
    · exact Except.ok.inj hgroups ▸ trivial
    · exact readGroups_normal hgroups
  have hclauses : q.ClausesNormal d depth :=
    ⟨hdepth, hfits.sorted, fun f => OperatorTable.readFilter?_normal hfilter,
      Slice.ofClauses_normal hslice, hlevels⟩
  refine ⟨⟨t, ht, hclauses, hfits.all⟩, ?_, fun hlt => readId_eq_none hlt hid⟩
  rintro target rfl
  exact readTypeName_eq_target htype

/-- What `normalize` gives is a normal query at the root, and one with an id has no groups. -/
theorem normalize_normal {v : Value} {q : Query} (h : d.normalize v = .ok q) :
    (∃ t, q.Normal d t 1) ∧ (q.id.isSome = true → q.groups = []) := by
  rw [normalize, bind_eq_ok] at h
  obtain ⟨q', hread, hcheck⟩ := h
  split_ifs at hcheck with hboth
  rw [pure_eq_ok] at hcheck
  subst hcheck
  refine ⟨(readQuery_normal v none 1 q' (Nat.le_refl 1) hread).1, fun hid => ?_⟩
  simpa [hid] using hboth

end Dialect

end GraphQuery
