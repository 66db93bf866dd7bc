/-
# The bound on nesting

Queries below queries and group levels below group levels share one count of levels, and a dialect
bounds it.  The bound does nothing but cut off: it never changes what is read, it only refuses what
is too deep.

* `QueryOf.StandsAt` says which query stands at which level of another.  In what was read no query
  and no group level is deeper than the bound (`normalize_levels`).
* Two bounds are compared step by step with `SameUnless`: under the larger one a document comes out
  as under the smaller one, unless the smaller one is exceeded (**`readQuery_within`**).  The steps
  that do not count levels are the same under both.

**`normalize_cutOff`** puts both together.
-/
import GraphQuery.Proofs.Query.Rereading

namespace GraphQuery

/-! ## 1. Levels -/

/-- The query stands at a level of the root: the root at the first, and a query in a selection one
level below the query that selects it. -/
inductive QueryOf.StandsAt (root : Query) : Nat → Query → Prop
  | root : StandsAt root 1 root
  | step {level : Nat} {q inner : Query} {key : String} (h : StandsAt root level q)
      (hmem : (key, .subquery inner) ∈ q.select) : StandsAt root (level + 1) inner

/-- A selection is no deeper than a bound if none of its entries is. -/
theorem Select.depth_le_iff {select : Select} {n : Nat} :
    Select.depth select ≤ n ↔ ∀ e ∈ select, Selection.depth e.2 ≤ n := by
  induction select with
  | nil => simp [Select.depth]
  | cons e rest ih =>
    obtain ⟨key, s⟩ := e
    rw [Select.depth, Nat.max_le, ih, List.forall_mem_cons]

namespace Dialect

/-- The dialect with another bound on nesting. -/
def within (d : Dialect) (maxDepth : Nat) : Dialect := { d with maxDepth }

variable {d : Dialect} {t : ResourceType} {depth : Nat}

/-- No group level is deeper than the bound. -/
theorem GroupsNormal.add_le {groups : List Group} (h : d.GroupsNormal depth groups) {j : Nat}
    (hj : j < groups.length) : depth + j ≤ d.maxDepth := by
  induction groups generalizing depth j with
  | nil => exact absurd hj (Nat.not_lt_zero j)
  | cons g inner ih =>
    obtain ⟨hdepth, -, hinner⟩ := h
    cases j with
    | zero => exact hdepth
    | succ j =>
      have := ih hinner (Nat.lt_of_succ_lt_succ hj)
      omega

/-- **What stands at a level of a normal query is normal there.** -/
theorem exists_normal_of_standsAt {root q : Query} {level : Nat} (hroot : root.Normal d t 1)
    (h : root.StandsAt level q) : ∃ t, q.Normal d t level := by
  induction h with
  | root => exact ⟨t, hroot⟩
  | step _ hmem ih =>
    obtain ⟨t, hq⟩ := ih
    cases hq.select _ hmem with
    | subquery _ _ _ htarget hclauses hselect => exact ⟨_, htarget, hclauses, hselect⟩

theorem depth_le_of_normal {key : String} {s : Selection} (h : s.Normal d t depth key)
    (hdepth : depth ≤ d.maxDepth) : depth + s.depth ≤ d.maxDepth := by
  induction h with
  | field _ => exact hdepth
  | expression _ => exact hdepth
  | @subquery t target depth key q r _ _ _ _ hclauses _ ih =>
    obtain ⟨typeName, id, select, filter, order, slice, groups⟩ := q
    have hselect : Select.depth select ≤ d.maxDepth - (depth + 1) := by
      refine Select.depth_le_iff.mpr fun e he => ?_
      have := ih e he hclauses.depth_le
      omega
    have hle := hclauses.depth_le
    rw [Selection.depth]
    omega

/-- **What was read keeps to the bound.** -/
theorem normalize_levels {v : Value} {m : Query} (h : d.normalize v = .ok m) :
    (∀ k q, m.StandsAt k q → k ≤ d.maxDepth ∧
      ∀ j, 1 ≤ j → j ≤ q.groups.length → k + j - 1 ≤ d.maxDepth) ∧
    m.depth ≤ d.maxDepth := by
  obtain ⟨⟨t, hm⟩, -⟩ := normalize_normal h
  constructor
  · intro k q hq
    obtain ⟨t', hnormal⟩ := exists_normal_of_standsAt hm hq
    refine ⟨hnormal.clauses.depth_le, fun j hj hle => ?_⟩
    have := hnormal.clauses.groups.add_le (j := j - 1) (by omega)
    omega
  · have hroot := hm.clauses.depth_le
    have hselect : Select.depth m.select ≤ d.maxDepth - 1 := by
      refine Select.depth_le_iff.mpr fun e he => ?_
      have := depth_le_of_normal (hm.select e he) hroot
      omega
    rw [QueryOf.depth]
    omega

/-! ## 2. Two bounds -/

variable {lo hi : Nat}

/-- The second computation comes out as the first, unless that goes beyond the bound. -/
abbrev CutOff {α : Type} (lo : Nat) (x y : Except QueryError α) : Prop :=
  SameUnless (· = .tooDeep lo) x y

theorem checkDepth_within (h : lo ≤ hi) (depth : Nat) :
    CutOff lo ((d.within lo).checkDepth depth) ((d.within hi).checkDepth depth) := by
  by_cases hlo : depth ≤ lo
  · have hok : ∀ n, depth ≤ n → (d.within n).checkDepth depth = .ok () :=
      fun n hn => checkDepth_eq_ok_iff.mpr hn
    rw [hok lo hlo, hok hi (Nat.le_trans hlo h)]
    exact .refl
  · have herror : (d.within lo).checkDepth depth = .error (.tooDeep lo) := if_neg hlo
    rw [herror]
    exact .error rfl

theorem readGroups_within (h : lo ≤ hi) (v : Value) (depth : Nat) :
    CutOff lo ((d.within lo).readGroups depth v) ((d.within hi).readGroups depth v) := by
  induction hn : sizeOf v using Nat.strongRecOn generalizing v depth with
  | _ n ih =>
  cases v with
  | map entries =>
    have hinner : CutOff lo ((d.within lo).readGroupsAmong (depth + 1) entries)
        ((d.within hi).readGroupsAmong (depth + 1) entries) := by
      rw [readGroupsAmong_eq, readGroupsAmong_eq]
      cases hw : Keyed.get? "group" entries with
      | none => exact .refl
      | some w => exact ih _ (hn ▸ Value.sizeOf_lt_of_get? hw) w _ rfl
    rw [readGroups, readGroups]
    refine (checkDepth_within h depth).bind fun _ _ => ?_
    refine SameUnless.refl.bind fun _ _ => ?_
    refine SameUnless.refl.bind fun _ _ => ?_
    refine SameUnless.refl.bind fun _ _ => ?_
    refine SameUnless.refl.bind fun _ _ => ?_
    exact hinner.bind_same
  | _ =>
    simp only [readGroups]
    exact (checkDepth_within h depth).bind_same

theorem readRelated_within (h : lo ≤ hi) (target : String) (depth : Nat) :
    CutOff lo ((d.within lo).readRelated target depth) ((d.within hi).readRelated target depth) :=
  (checkDepth_within h depth).bind_same

theorem readSource_within (h : lo ≤ hi) (t : ResourceType) (depth : Nat) (key source : String) :
    CutOff lo ((d.within lo).readSource t depth key source)
      ((d.within hi).readSource t depth key source) := by
  unfold readSource
  split
  · split
    · exact (readRelated_within h _ _).bind_same
    · exact .refl
  · exact .refl

theorem readName_within (h : lo ≤ hi) (t : ResourceType) (depth : Nat) (name : String)
    (select : Select) :
    CutOff lo ((d.within lo).readName t depth name select)
      ((d.within hi).readName t depth name select) := by
  unfold readName
  split
  · exact .refl
  · exact (readSource_within h t depth name name).bind_same

theorem readEntry_within (h : lo ≤ hi) (t : ResourceType) (depth : Nat) (key : String)
    (v : Value) :
    CutOff lo ((d.within lo).readEntry t depth key v) ((d.within hi).readEntry t depth key v) := by
  unfold readEntry
  split
  · exact (readSource_within h t depth key _).bind_same
  · exact .refl
  · exact .refl

/-- Wherever the document stands for a query, the bounds cut it off only. -/
def CutsOff (d : Dialect) (lo hi : Nat) (v : Value) : Prop :=
  ∀ expected depth, CutOff lo ((d.within lo).readQuery expected depth v)
    ((d.within hi).readQuery expected depth v)

theorem readSelection_within (h : lo ≤ hi) {v : Value} (ih : d.CutsOff lo hi v)
    (t : ResourceType) (depth : Nat) (key : String) :
    CutOff lo ((d.within lo).readSelection t depth key v)
      ((d.within hi).readSelection t depth key v) := by
  refine (readEntry_within h t depth key v).bind fun s? _ => ?_
  cases s? with
  | inl s => exact .refl
  | inr r => exact (ih (some r.target) (depth + 1)).bind_same

theorem readSelectEntries_within (h : lo ≤ hi) {entries : List (String × Value)}
    (ih : ∀ e ∈ entries, d.CutsOff lo hi e.2) (t : ResourceType) (depth : Nat) (select : Select) :
    CutOff lo ((d.within lo).readSelectEntries t depth entries select)
      ((d.within hi).readSelectEntries t depth entries select) := by
  rw [readSelectEntries_eq_foldlM, readSelectEntries_eq_foldlM]
  exact .foldlM (fun _ e he => (readSelection_within h (ih e he) t depth e.1).bind_same) select

theorem readSelect_within (h : lo ≤ hi) {v : Value}
    (ih : ∀ w, sizeOf w < sizeOf v → d.CutsOff lo hi w) (t : ResourceType) (depth : Nat) :
    CutOff lo ((d.within lo).readSelect t depth v) ((d.within hi).readSelect t depth v) := by
  cases v with
  | string name =>
    rw [readSelect, readSelect]
    exact readName_within h t depth name []
  | list items =>
    rw [readSelect, readSelect, readSelectItems_eq_foldlM, readSelectItems_eq_foldlM]
    refine .foldlM (fun select item hitem => ?_) []
    have hsize := Value.sizeOf_lt_of_mem_items hitem
    cases item with
    | string name => exact readName_within h t depth name select
    | map entries =>
      refine readSelectEntries_within h (fun e he => ih e.2 ?_) t depth select
      exact Nat.lt_trans (Value.sizeOf_lt_of_mem_entries he) hsize
    | _ => exact .refl
  | map entries =>
    rw [readSelect, readSelect]
    exact readSelectEntries_within h
      (fun e he => ih e.2 (Value.sizeOf_lt_of_mem_entries he)) t depth []
  | _ =>
    simp only [readSelect]
    exact .refl

/-- **The bound only cuts off**: a document comes out as under a smaller bound, unless it goes beyond
that. -/
theorem readQuery_within (h : lo ≤ hi) (v : Value) : d.CutsOff lo hi v := by
  induction hn : sizeOf v using Nat.strongRecOn generalizing v with
  | _ n ih =>
  intro expected depth
  cases v with
  | map entries =>
    have hselect : ∀ t, CutOff lo ((d.within lo).readSelectAmong t depth entries)
        ((d.within hi).readSelectAmong t depth entries) := by
      intro t
      rw [readSelectAmong_eq, readSelectAmong_eq]
      refine .option_mapM fun v hv => readSelect_within h (fun w hw => ih _ ?_ w rfl) t depth
      exact hn ▸ Nat.lt_trans hw (Value.sizeOf_lt_of_get? hv)
    have hgroups : CutOff lo ((d.within lo).readGroupsAmong depth entries)
        ((d.within hi).readGroupsAmong depth entries) := by
      rw [readGroupsAmong_eq, readGroupsAmong_eq]
      cases Keyed.get? "group" entries with
      | none => exact .refl
      | some v => exact readGroups_within h v depth
    rw [readQuery, readQuery]
    refine (checkDepth_within h depth).bind fun _ _ => ?_
    refine SameUnless.refl.bind fun _ _ => ?_
    refine SameUnless.refl.bind fun _ _ => ?_
    refine SameUnless.refl.bind fun t _ => ?_
    refine SameUnless.refl.bind fun _ _ => ?_
    refine hgroups.bind fun _ _ => ?_
    exact (hselect t).bind_same
  | _ =>
    simp only [readQuery]
    exact (checkDepth_within h depth).bind_same

theorem normalize_within (h : lo ≤ hi) (v : Value) :
    CutOff lo ((d.within lo).normalize v) ((d.within hi).normalize v) :=
  (readQuery_within h v none 1).bind_same

/-- A document with queries on three levels, and groups on two. -/
def nestedDocument : Value := .map [
  ("group", .map [("by", .string "age"), ("group", .map [("by", .list [])])]),
  ("select", .map [("friends", .map [("select", .string "friends")])]),
  ("type", .string "Person")]

/-- The query that it writes. -/
def nestedQuery : Query where
  typeName := "Person"
  select := [("friends", .subquery {
    typeName := "Person"
    select := [("friends", .subquery {
      typeName := "Person"
      select := [("age", .field "age"), ("id", .field "id"), ("name", .field "name")] })] })]
  groups := [{ keys := ["age"], select := [("age", .field "age")] }, { keys := [], select := [] }]

/-- **The bound on nesting is a pure cut-off.**  In what is read under a bound every query, every
group level, and the query as a whole keep to the bound; a larger bound does not change it; under a
smaller bound it is read too, or refused as too deep. -/
theorem normalize_cutOff (d : Dialect) (D : Nat) (v : Value) (m : Query)
    (h : (d.within D).normalize v = .ok m) :
    (∀ k q, m.StandsAt k q → k ≤ D ∧ ∀ j, 1 ≤ j → j ≤ q.groups.length → k + j - 1 ≤ D) ∧
      m.depth ≤ D ∧
      (∀ D', D ≤ D' → (d.within D').normalize v = .ok m) ∧
      ∀ D', D' < D → (d.within D').normalize v = .ok m ∨
        (d.within D').normalize v = .error (.tooDeep D') := by
  obtain ⟨hlevels, hdepth⟩ := normalize_levels h
  refine ⟨hlevels, hdepth, ?_, ?_⟩
  · intro D' hle
    rcases normalize_within hle v with hsame | ⟨e, herror, -⟩
    · rw [hsame, h]
    · rw [h] at herror
      cases herror
  · intro D' hlt
    rcases normalize_within (Nat.le_of_lt hlt) v with hsame | ⟨e, herror, rfl⟩
    · rw [h] at hsame
      exact Or.inl hsame.symm
    · exact Or.inr herror

theorem normalize_cutOff_people :
    (people.within 3).normalize nestedDocument = .ok nestedQuery ∧ nestedQuery.depth ≤ 3 ∧
      (people.within 4).normalize nestedDocument = .ok nestedQuery ∧
      (people.within 2).normalize nestedDocument = .error (.tooDeep 2) := by
  have h : (people.within 3).normalize nestedDocument = .ok nestedQuery := by decide +kernel
  obtain ⟨-, hdepth, hmore, hless⟩ := normalize_cutOff people 3 nestedDocument nestedQuery h
  refine ⟨h, hdepth, hmore 4 (by decide), (hless 2 (by decide)).resolve_left ?_⟩
  decide +kernel

end Dialect

end GraphQuery
