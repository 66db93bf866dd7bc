/-
# Quoted data in queries

A query document holds expressions in its filters, in its selection, and in the selection and the
aggregates of its group levels, and so in the queries below it.  `OperatorTable.RequotesAt` goes down
to one of these expressions and replaces the operand of one `$literal` in it.

The document is still read, or refused, as it was, and what is read is checked as it was
(**`check_requoted`**): quoted data is not inspected.

There is one exception.  Validation looks into aggregates for the names that they pluck, and it does
not stop at `$literal` there, as all other checks do.  So a quoted map that looks like a use of
`$pluck` must name a field (`quotedPluck_refused`).  Hence the parameter `kept` of the relation, which
says what of an aggregate stays: reading asks for nothing, validation for the names that are plucked.
-/
import GraphQuery.Proofs.Expression.Quoting
import GraphQuery.Proofs.Query.Outlines
import GraphQuery.Proofs.Query.LongForms

namespace GraphQuery

/-! ## 1. Other quoted data in a document -/

/-- In the document of a filter, the operand of one `$literal` inside an expression, or inside what a
value is to equal, is replaced. -/
inductive FilterRequotes : Value → Value → Prop
  | part {before after : Row} {key : String} {front rest : List Value} {v w : Value}
      (hkey : key = "$and" ∨ key = "$or") (h : FilterRequotes v w) :
      FilterRequotes (.map (before ++ (key, .list (front ++ v :: rest)) :: after))
        (.map (before ++ (key, .list (front ++ w :: rest)) :: after))
  | negated {before after : Row} {v w : Value} (h : FilterRequotes v w) :
      FilterRequotes (.map (before ++ ("$not", v) :: after)) (.map (before ++ ("$not", w) :: after))
  | test {before after : Row} {tag : String} {v w : Value} (htag : isTag tag = true)
      (hconn : tag ∉ Filter.connectives)
      (h : Value.Requotes (.map [(tag, v)]) (.map [(tag, w)])) :
      FilterRequotes (.map (before ++ (tag, v) :: after)) (.map (before ++ (tag, w) :: after))
  | condition {before after : Row} {path : String} {v w : Value} (hpath : isTag path = false)
      (h : v.Requotes w) :
      FilterRequotes (.map (before ++ (path, v) :: after)) (.map (before ++ (path, w) :: after))

/-- A filter with quoted data is not an empty clause. -/
theorem FilterRequotes.exists_maps {v w : Value} (h : FilterRequotes v w) :
    ∃ entries entries' : Row, v = .map entries ∧ w = .map entries' ∧ entries ≠ [] ∧
      entries' ≠ [] := by
  cases h with
  | part _ _ => exact ⟨_, _, rfl, rfl, by simp, by simp⟩
  | negated _ => exact ⟨_, _, rfl, rfl, by simp, by simp⟩
  | test _ _ _ => exact ⟨_, _, rfl, rfl, by simp, by simp⟩
  | condition _ _ => exact ⟨_, _, rfl, rfl, by simp, by simp⟩

/-- What has clauses: a query or a group level. -/
inductive Scope where
  | query
  | level

/-- A position in the document of a query: a query or group level, the selection of one, or what
stands under a key of that. -/
inductive Position where
  | clauses (s : Scope)
  | select (s : Scope)
  | entry (s : Scope)

/-- In the document at a position, the operand of one `$literal` inside an expression is replaced.
In an aggregate, it is one that keeps what `kept` says. -/
inductive OperatorTable.RequotesAt (t : OperatorTable) {β : Type} (kept : Value → β) :
    Position → Value → Value → Prop
  | filter {s : Scope} {before after : Row} {v w : Value} (h : FilterRequotes v w) :
      RequotesAt t kept (.clauses s) (.map (before ++ ("where", v) :: after))
        (.map (before ++ ("where", w) :: after))
  | group {s : Scope} {before after : Row} {v w : Value}
      (h : RequotesAt t kept (.clauses .level) v w) :
      RequotesAt t kept (.clauses s) (.map (before ++ ("group", v) :: after))
        (.map (before ++ ("group", w) :: after))
  | select {s : Scope} {before after : Row} {v w : Value} (h : RequotesAt t kept (.select s) v w) :
      RequotesAt t kept (.clauses s) (.map (before ++ ("select", v) :: after))
        (.map (before ++ ("select", w) :: after))
  | aggregate {before after front rest : Row} {key : String} {v w : Value} (hkept : kept v = kept w)
      (h : v.Requotes w) :
      RequotesAt t kept (.clauses .level)
        (.map (before ++ ("aggregates", .map (front ++ (key, v) :: rest)) :: after))
        (.map (before ++ ("aggregates", .map (front ++ (key, w) :: rest)) :: after))
  | under {s : Scope} {before after : Row} {key : String} {v w : Value}
      (h : RequotesAt t kept (.entry s) v w) :
      RequotesAt t kept (.select s) (.map (before ++ (key, v) :: after))
        (.map (before ++ (key, w) :: after))
  | listed {s : Scope} {front rest : List Value} {before after : Row} {key : String} {v w : Value}
      (h : RequotesAt t kept (.entry s) v w) :
      RequotesAt t kept (.select s)
        (.list (front ++ .map (before ++ (key, v) :: after) :: rest))
        (.list (front ++ .map (before ++ (key, w) :: after) :: rest))
  | expression {s : Scope} {v w : Value} (hv : t.isExpression v = true) (h : v.Requotes w) :
      RequotesAt t kept (.entry s) v w
  | subquery {v w : Value} (hv : t.isExpression v = false)
      (h : RequotesAt t kept (.clauses .query) v w) :
      RequotesAt t kept (.entry .query) v w

/-! ## 2. Filters -/

theorem Filter.partPaths_eq_flatten (parts : List Filter) :
    Filter.partPaths parts = (parts.map Filter.paths).flatten := by
  induction parts with
  | nil => rfl
  | cons f rest ih => rw [Filter.partPaths, ih, List.map_cons, List.flatten_cons]

theorem Filter.paths_ofParts (parts : List Filter) :
    (Filter.ofParts parts).paths = (parts.map Filter.paths).flatten := by
  match parts with
  | [] => rfl
  | [f] => simp [Filter.ofParts]
  | f :: g :: rest =>
    rw [Filter.ofParts_of_two_le (by simp), Filter.paths, Filter.partPaths_eq_flatten]

namespace OperatorTable

variable {t : OperatorTable} {v w : Value}

/-- A filter tests the same paths if the entry that changes does. -/
theorem readFilter_replaced {before after : Row} {key : String}
    (h : ReadAlike Filter.paths (t.readFilterEntry key v) (t.readFilterEntry key w)) :
    ReadAlike Filter.paths (t.readFilter (.map (before ++ (key, v) :: after)))
      (t.readFilter (.map (before ++ (key, w) :: after))) := by
  have hat : ReadAlike (List.map Filter.paths)
      ((before ++ (key, v) :: after).mapM fun e => t.readFilterEntry e.1 e.2)
      ((before ++ (key, w) :: after).mapM fun e => t.readFilterEntry e.1 e.2) :=
    Corresponds.mapM_at (v := (key, v)) (w := (key, w)) QueryError.Alike.refl h before after
  rw [readFilter_map, readFilter_map]
  refine hat.map fun parts parts' hparts => ?_
  rw [Filter.paths_ofParts, Filter.paths_ofParts, hparts]

theorem readCondition_requoted (hliteral : t.contains "$literal" = true) (h : v.Requotes w) :
    ReadAlike (fun _ => ()) (t.readCondition v) (t.readCondition w) := by
  rw [readCondition, readCondition, isExpression_congr h.tag?_eq,
    checkOperators_requoted hliteral h, checkTag_congr h.tag?_eq]
  split_ifs
  · exact ReadAlike.bind_same fun _ => .ok rfl
  · exact ReadAlike.bind_same fun _ => .ok rfl

/-- **A filter with other quoted data tests the same paths.** -/
theorem readFilter_requoted (hliteral : t.contains "$literal" = true) (h : FilterRequotes v w) :
    ReadAlike Filter.paths (t.readFilter v) (t.readFilter w) := by
  induction h with
  | @part before after key front rest v w hkey _ ih =>
    have hparts : ReadAlike (List.map Filter.paths) (t.readParts key (.list (front ++ v :: rest)))
        (t.readParts key (.list (front ++ w :: rest))) :=
      Corresponds.mapM_at QueryError.Alike.refl ih front rest
    refine readFilter_replaced ?_
    rcases hkey with rfl | rfl
    all_goals
      refine hparts.map fun parts parts' h => ?_
      rw [Filter.paths, Filter.paths, Filter.partPaths_eq_flatten, Filter.partPaths_eq_flatten, h]
  | negated _ ih =>
    refine readFilter_replaced (ih.map fun f f' hf => ?_)
    rw [Filter.paths, Filter.paths, hf]
  | test htag hconn h =>
    refine readFilter_replaced ?_
    rw [readFilterEntry_of_not_mem hconn, readFilterEntry_of_not_mem hconn, if_pos htag, if_pos htag]
    exact (requireExpression_requoted hliteral h).bind fun _ _ _ => .ok rfl
  | condition hpath h =>
    have hconn := not_mem_connectives_of_isTag hpath
    refine readFilter_replaced ?_
    rw [readFilterEntry_of_not_mem hconn, readFilterEntry_of_not_mem hconn, hpath]
    exact (readCondition_requoted hliteral h).map fun _ _ _ => rfl

theorem readFilter?_requoted (hliteral : t.contains "$literal" = true) (h : FilterRequotes v w) :
    ReadAlike (Option.map Filter.outline) (t.readFilter? (some v)) (t.readFilter? (some w)) := by
  have hread := readFilter_requoted hliteral h
  obtain ⟨entries, entries', rfl, rfl, hne, hne'⟩ := h.exists_maps
  rw [t.readFilter?_of_ne_nil hne, t.readFilter?_of_ne_nil hne']
  refine hread.map fun f f' hf => ?_
  rw [Option.map_some, Option.map_some, Filter.outline, Filter.outline, hf]

end OperatorTable

/-! ## 3. Selections -/

section Entries

variable {read : String → Value → Except QueryError Selection} {f : Selection → Selection}

theorem putEntry_alike {e : String × Value} {acc acc' : Select}
    (h : Keyed.mapValues f acc = Keyed.mapValues f acc') :
    ReadAlike (Keyed.mapValues f) (putEntry read acc e) (putEntry read acc' e) := by
  refine ReadAlike.bind_same fun s => .ok ?_
  rw [Keyed.mapValues_insert, Keyed.mapValues_insert, h]

theorem foldlM_putEntry_alike {entries : Row} {acc acc' : Select}
    (h : Keyed.mapValues f acc = Keyed.mapValues f acc') :
    ReadAlike (Keyed.mapValues f) (entries.foldlM (putEntry read) acc)
      (entries.foldlM (putEntry read) acc') := by
  refine Corresponds.foldlM (fun e _ acc acc' hacc => ?_) h
  exact putEntry_alike hacc

/-- Entries are read alike if the one that changes is. -/
theorem foldlM_putEntry_replaced {key : String} {v w : Value}
    (h : ReadAlike f (read key v) (read key w)) (before after : Row) (acc : Select) :
    ReadAlike (Keyed.mapValues f) ((before ++ (key, v) :: after).foldlM (putEntry read) acc)
      ((before ++ (key, w) :: after).foldlM (putEntry read) acc) := by
  refine Corresponds.foldlM_at QueryError.Alike.refl (fun acc => ?_)
    (fun e _ acc acc' hacc => ?_) acc
  · refine h.bind fun s s' hs => .ok ?_
    rw [Keyed.mapValues_insert, Keyed.mapValues_insert, hs]
  · exact putEntry_alike hacc

namespace ReadsItems

variable {all : Row} {item : Select → Value → Except QueryError Select}

/-- What items are laid over does not change how they are read. -/
theorem alike (hitem : ReadsItems read all item)
    (hother : ∀ v, (∀ name, v ≠ .string name) → (∀ entries, v ≠ .map entries) →
      ∀ acc acc', item acc v = item acc' v)
    {acc acc' : Select} (h : Keyed.mapValues f acc = Keyed.mapValues f acc') (v : Value) :
    ReadAlike (Keyed.mapValues f) (item acc v) (item acc' v) := by
  cases v with
  | string name =>
    by_cases hname : name = "*"
    · subst hname
      rw [hitem.star, hitem.star]
      exact foldlM_putEntry_alike h
    · rw [hitem.name acc name hname, hitem.name acc' name hname]
      exact putEntry_alike h
  | map entries =>
    rw [hitem.map, hitem.map]
    exact foldlM_putEntry_alike h
  | _ => exact ReadAlike.of_eq _ (hother _ (by simp) (by simp) acc acc')

/-- Items are read alike if the entry that changes is. -/
theorem foldlM_replaced (hitem : ReadsItems read all item)
    (hother : ∀ v, (∀ name, v ≠ .string name) → (∀ entries, v ≠ .map entries) →
      ∀ acc acc', item acc v = item acc' v)
    {key : String} {v w : Value} (h : ReadAlike f (read key v) (read key w)) (before after : Row)
    (front rest : List Value) :
    ReadAlike (Keyed.mapValues f)
      ((front ++ .map (before ++ (key, v) :: after) :: rest).foldlM item [])
      ((front ++ .map (before ++ (key, w) :: after) :: rest).foldlM item []) := by
  refine Corresponds.foldlM_at QueryError.Alike.refl (fun acc => ?_)
    (fun v _ _ _ hacc => hitem.alike hother hacc v) []
  rw [hitem.map, hitem.map]
  exact foldlM_putEntry_replaced h before after acc

end ReadsItems

end Entries

/-! ## 4. Clauses -/

section Clauses

variable {d : Dialect} {summary : Value → Value} {before after : Row} {key : String} {v w : Value}

/-- What is read from under a key is read alike if it is when the replaced value stands there. -/
theorem readUnder_replaced {α β : Type} {f : α → β} {k : String}
    (read : Option Value → Except QueryError α)
    (h : key = k → ReadAlike f (read (some v)) (read (some w))) :
    ReadAlike f (read (Keyed.get? k (before ++ (key, v) :: after)))
      (read (Keyed.get? k (before ++ (key, w) :: after))) := by
  rcases Keyed.get?_replaced k key v w before after with hsame | ⟨hk, hv, hw⟩
  · exact ReadAlike.of_eq f (by rw [hsame])
  · rw [hv, hw]
    exact h hk

theorem readGroupsAmong_replaced {depth : Nat}
    (h : key = "group" → ReadAlike (List.map (GroupOf.outline summary)) (d.readGroups depth v)
      (d.readGroups depth w)) :
    ReadAlike (List.map (GroupOf.outline summary))
      (d.readGroupsAmong depth (before ++ (key, v) :: after))
      (d.readGroupsAmong depth (before ++ (key, w) :: after)) := by
  rw [Dialect.readGroupsAmong_eq, Dialect.readGroupsAmong_eq]
  rcases Keyed.get?_replaced "group" key v w before after with hsame | ⟨hk, hv, hw⟩
  · exact ReadAlike.of_eq _ (by rw [hsame])
  · rw [hv, hw]
    exact h hk

theorem readSelectAmong_replaced {t : ResourceType} {depth : Nat} {f : Selection → Selection}
    (h : key = "select" → ReadAlike (Keyed.mapValues f) (d.readSelect t depth v)
      (d.readSelect t depth w)) :
    ReadAlike (Option.map (Keyed.mapValues f)) (d.readSelectAmong t depth (before ++ (key, v) :: after))
      (d.readSelectAmong t depth (before ++ (key, w) :: after)) := by
  rw [Dialect.readSelectAmong_eq, Dialect.readSelectAmong_eq]
  refine readUnder_replaced (fun v? => v?.mapM (d.readSelect t depth)) fun hk => ?_
  rw [Option.mapM_some, Option.mapM_some]
  exact (h hk).map fun _ _ hselect => congrArg some hselect

/-- The clauses under all other keys stay. -/
theorem get?_replaced_of_ne {k : String} (h : key ≠ k) :
    Keyed.get? k (before ++ (key, v) :: after) = Keyed.get? k (before ++ (key, w) :: after) :=
  (Keyed.get?_replaced k key v w before after).resolve_right fun hk => h hk.1

theorem Section.check_replaced (s : Section) :
    s.check (before ++ (key, v) :: after) = s.check (before ++ (key, w) :: after) := by
  rw [Section.check, Section.check, unexpectedKey?, unexpectedKey?, Keyed.keys_replaced v w]

theorem requireSelect_alike {f : Selection → Selection} (typeName : String)
    {groups groups' : List Group} {select? select?' : Option Select}
    (hgroups : groups.map (GroupOf.outline summary) = groups'.map (GroupOf.outline summary))
    (hselect : select?.map (Keyed.mapValues f) = select?'.map (Keyed.mapValues f)) :
    ReadAlike (Keyed.mapValues f) (Dialect.requireSelect typeName groups select?)
      (Dialect.requireSelect typeName groups' select?') := by
  have hempty : groups.isEmpty = groups'.isEmpty := by
    rw [← List.isEmpty_map (f := GroupOf.outline summary), hgroups, List.isEmpty_map]
  cases select? with
  | none =>
    obtain rfl : select?' = none := by
      rwa [Option.map_none, eq_comm, Option.map_eq_none_iff] at hselect
    rw [Dialect.requireSelect, Dialect.requireSelect, hempty]
    exact ReadAlike.of_eq _ rfl
  | some select =>
    rw [Option.map_some, eq_comm, Option.map_eq_some_iff] at hselect
    obtain ⟨select', rfl, h⟩ := hselect
    exact .ok h.symm

/-- A query is read alike if the clause that changes is: the filter, the group levels or the
selection. -/
theorem readQuery_replaced {expected : Option String} {depth : Nat}
    (hkey : key ∈ ["where", "group", "select"])
    (hfilter : key = "where" → ReadAlike (Option.map Filter.outline)
      (d.operators.readFilter? (some v)) (d.operators.readFilter? (some w)))
    (hgroups : key = "group" → ReadAlike (List.map (GroupOf.outline summary))
      (d.readGroups depth v) (d.readGroups depth w))
    (hselect : key = "select" → ∀ t, ReadAlike (Keyed.mapValues (Selection.outline summary))
      (d.readSelect t depth v) (d.readSelect t depth w)) :
    ReadAlike (QueryOf.outline summary)
      (d.readQuery expected depth (.map (before ++ (key, v) :: after)))
      (d.readQuery expected depth (.map (before ++ (key, w) :: after))) := by
  have hother : ∀ k, k ∉ ["where", "group", "select"] →
      Keyed.get? k (before ++ (key, v) :: after) = Keyed.get? k (before ++ (key, w) :: after) := by
    intro k hk
    refine get?_replaced_of_ne ?_
    rintro rfl
    exact hk hkey
  have htype : Dialect.readTypeName expected (before ++ (key, v) :: after) =
      Dialect.readTypeName expected (before ++ (key, w) :: after) := by
    unfold Dialect.readTypeName
    rw [hother "type" (by decide)]
  have hid : Dialect.readId depth (before ++ (key, v) :: after) =
      Dialect.readId depth (before ++ (key, w) :: after) := by
    unfold Dialect.readId
    rw [hother "id" (by decide)]
  have hslice : Slice.ofClauses (before ++ (key, v) :: after) =
      Slice.ofClauses (before ++ (key, w) :: after) :=
    Slice.ofClauses_congr fun k hk => hother k (by revert k; decide)
  rw [Dialect.readQuery, Dialect.readQuery, Section.check_replaced (w := w), htype, hid, hslice,
    hother "order" (by decide)]
  refine ReadAlike.bind_same fun _ => ?_
  refine ReadAlike.bind_same fun _ => ?_
  refine ReadAlike.bind_same fun typeName => ?_
  refine ReadAlike.bind_same fun t => ?_
  refine ReadAlike.bind_same fun id => ?_
  refine (readGroupsAmong_replaced hgroups).bind fun groups groups' hgroups => ?_
  refine (readSelectAmong_replaced fun hk => hselect hk t).bind fun select? select?' hselect? => ?_
  refine (requireSelect_alike typeName hgroups hselect?).bind fun select select' hselect => ?_
  refine (readUnder_replaced d.operators.readFilter? hfilter).bind fun filter filter' hfilter => ?_
  refine ReadAlike.bind_same fun order => ?_
  refine ReadAlike.bind_same fun slice => .ok ?_
  rw [← Select.outline_eq_mapValues, ← Select.outline_eq_mapValues] at hselect
  rw [QueryOf.outline, QueryOf.outline, hgroups, hselect, hfilter]

/-- A group level is read alike if the clause that changes is. -/
theorem readGroups_replaced {depth : Nat}
    (hkey : key ∈ ["where", "group", "select", "aggregates"])
    (hfilter : key = "where" → ReadAlike (Option.map Filter.outline)
      (d.operators.readFilter? (some v)) (d.operators.readFilter? (some w)))
    (hgroups : key = "group" → ReadAlike (List.map (GroupOf.outline summary))
      (d.readGroups (depth + 1) v) (d.readGroups (depth + 1) w))
    (hselect : key = "select" → ∀ keys, ReadAlike (Keyed.mapValues Selection.blank)
      (d.operators.readGroupSelect keys (some v)) (d.operators.readGroupSelect keys (some w)))
    (haggregates : key = "aggregates" → ReadAlike (Keyed.mapValues summary)
      (d.operators.readAggregates (some v)) (d.operators.readAggregates (some w))) :
    ReadAlike (List.map (GroupOf.outline summary))
      (d.readGroups depth (.map (before ++ (key, v) :: after)))
      (d.readGroups depth (.map (before ++ (key, w) :: after))) := by
  have hother : ∀ k, k ∉ ["where", "group", "select", "aggregates"] →
      Keyed.get? k (before ++ (key, v) :: after) = Keyed.get? k (before ++ (key, w) :: after) := by
    intro k hk
    refine get?_replaced_of_ne ?_
    rintro rfl
    exact hk hkey
  have hslice : Slice.ofClauses (before ++ (key, v) :: after) =
      Slice.ofClauses (before ++ (key, w) :: after) :=
    Slice.ofClauses_congr fun k hk => hother k (by revert k; decide)
  rw [Dialect.readGroups, Dialect.readGroups, Section.check_replaced (w := w), hslice,
    hother "by" (by decide), hother "order" (by decide)]
  refine ReadAlike.bind_same fun _ => ?_
  refine ReadAlike.bind_same fun _ => ?_
  refine ReadAlike.bind_same fun keys => ?_
  refine (readUnder_replaced (d.operators.readGroupSelect keys) fun hk => hselect hk keys).bind
    fun select select' hselect => ?_
  refine (readUnder_replaced d.operators.readAggregates haggregates).bind
    fun aggregates aggregates' haggregates => ?_
  refine (readGroupsAmong_replaced hgroups).bind fun inner inner' hinner => ?_
  refine (readUnder_replaced d.operators.readFilter? hfilter).bind fun filter filter' hfilter => ?_
  refine ReadAlike.bind_same fun order => ?_
  refine ReadAlike.bind_same fun slice => .ok ?_
  rw [List.map_cons, List.map_cons, GroupOf.outline, GroupOf.outline, hselect, haggregates, hinner,
    hfilter]

end Clauses

/-! ## 5. Down to the expression -/

namespace OperatorTable

variable {t : OperatorTable} {β : Type} {kept : Value → β} {v w : Value}

theorem readGroupSelection_requoted (hliteral : t.contains "$literal" = true)
    (hv : t.isExpression v = true) (h : v.Requotes w) :
    ReadAlike Selection.blank (t.readGroupSelection v) (t.readGroupSelection w) := by
  obtain ⟨tag, operand, rfl, -⟩ := isExpression_iff.mp hv
  obtain ⟨entries, rfl⟩ := h.exists_map
  exact (requireExpression_requoted hliteral h).bind fun _ _ _ => .ok rfl

theorem readAggregates_requoted (hliteral : t.contains "$literal" = true) {front rest : Row}
    {key : String} {summary : Value → Value} (hsummary : summary v = summary w)
    (h : v.Requotes w) :
    ReadAlike (Keyed.mapValues summary)
      (t.readAggregates (some (.map (front ++ (key, v) :: rest))))
      (t.readAggregates (some (.map (front ++ (key, w) :: rest)))) := by
  have hentries : Keyed.mapValues summary (front ++ (key, v) :: rest) =
      Keyed.mapValues summary (front ++ (key, w) :: rest) := by
    simp only [Keyed.mapValues, List.map_append, List.map_cons, hsummary]
  rw [readAggregates, readAggregates]
  simp only [List.forM_eq_forM, List.forM_append, List.forM_cons, bind_assoc]
  refine ReadAlike.bind_same fun _ => ?_
  refine (requireExpression_requoted hliteral h).bind fun _ _ _ => ?_
  exact ReadAlike.bind_same fun _ => .ok hentries

/-- What has clauses is a map and stays one, with the same keys. -/
theorem RequotesAt.exists_maps {s : Scope} (h : t.RequotesAt kept (.clauses s) v w) :
    ∃ entries entries' : Row, v = .map entries ∧ w = .map entries' ∧ v.tag? = w.tag? := by
  cases h with
  | filter _ => exact ⟨_, _, rfl, rfl, Value.tag?_replaced _ _ _ _ _⟩
  | group _ => exact ⟨_, _, rfl, rfl, Value.tag?_replaced _ _ _ _ _⟩
  | select _ => exact ⟨_, _, rfl, rfl, Value.tag?_replaced _ _ _ _ _⟩
  | aggregate _ _ => exact ⟨_, _, rfl, rfl, Value.tag?_replaced _ _ _ _ _⟩

end OperatorTable

namespace Dialect

variable {d : Dialect} {summary : Value → Value} {v w : Value}

theorem readSelection_expression_alike (hliteral : d.operators.contains "$literal" = true)
    (hv : d.operators.isExpression v = true) (h : v.Requotes w) (t : ResourceType) (depth : Nat)
    (key : String) :
    ReadAlike (Selection.outline summary) (d.readSelection t depth key v)
      (d.readSelection t depth key w) := by
  have hw := (OperatorTable.isExpression_congr (t := d.operators) h.tag?_eq).symm.trans hv
  obtain ⟨tag, operand, rfl, -⟩ := OperatorTable.isExpression_iff.mp hv
  obtain ⟨entries, rfl⟩ := h.exists_map
  rw [readSelection, readSelection, readEntry, readEntry, if_pos hv, if_pos hw,
    OperatorTable.checkOperators_requoted hliteral h, bind_assoc, bind_assoc]
  exact ReadAlike.bind_same fun _ => .ok rfl

/-- A map that is no expression is refused under a name that is no relationship. -/
theorem readSelection_neither {t : ResourceType} {depth : Nat} {key : String} {entries : Row}
    (hexpr : d.operators.isExpression (.map entries) = false) (hr : t.relationship? key = none) :
    d.readSelection t depth key (.map entries) = (do
      QueryError.ofExpr (d.operators.checkTag (.map entries))
      .error (.invalidQuery (.neitherSelection key t.name))) := by
  rw [readSelection, readEntry, hexpr, hr]
  cases QueryError.ofExpr (d.operators.checkTag (.map entries)) <;> rfl

theorem readSelection_query_alike {entries entries' : Row}
    (htag : (Value.map entries).tag? = (Value.map entries').tag?)
    (hv : d.operators.isExpression (.map entries) = false) {t : ResourceType} {depth : Nat}
    {key : String}
    (h : ∀ target, ReadAlike (QueryOf.outline summary)
      (d.readQuery (some target) (depth + 1) (.map entries))
      (d.readQuery (some target) (depth + 1) (.map entries'))) :
    ReadAlike (Selection.outline summary) (d.readSelection t depth key (.map entries))
      (d.readSelection t depth key (.map entries')) := by
  have hw := (OperatorTable.isExpression_congr (t := d.operators) htag).symm.trans hv
  cases hr : t.relationship? key with
  | none =>
    refine ReadAlike.of_eq _ ?_
    rw [readSelection_neither hv hr, readSelection_neither hw hr, OperatorTable.checkTag_congr htag]
  | some r =>
    rw [readSelection_query hv hr, readSelection_query hw hr]
    refine (h r.target).map fun q q' hq => ?_
    rw [Selection.outline_subquery, Selection.outline_subquery, hq]

/-- What is read at a position has the same outline. -/
def AlikeAt (d : Dialect) (summary : Value → Value) : Position → Value → Value → Prop
  | .clauses .query, v, w => ∀ expected depth, ReadAlike (QueryOf.outline summary)
      (d.readQuery expected depth v) (d.readQuery expected depth w)
  | .clauses .level, v, w => ∀ depth, ReadAlike (List.map (GroupOf.outline summary))
      (d.readGroups depth v) (d.readGroups depth w)
  | .select .query, v, w => ∀ t depth, ReadAlike (Keyed.mapValues (Selection.outline summary))
      (d.readSelect t depth v) (d.readSelect t depth w)
  | .select .level, v, w => ∀ keys, ReadAlike (Keyed.mapValues Selection.blank)
      (d.operators.readGroupSelect keys (some v)) (d.operators.readGroupSelect keys (some w))
  | .entry .query, v, w => ∀ t depth key, ReadAlike (Selection.outline summary)
      (d.readSelection t depth key v) (d.readSelection t depth key w)
  | .entry .level, v, w => ReadAlike Selection.blank (d.operators.readGroupSelection v)
      (d.operators.readGroupSelection w)

/-- A clause that a query and a group level share. -/
theorem alikeAt_clauses {s : Scope} {before after : Row} {key : String}
    (hkey : key ∈ ["where", "group", "select"])
    (hfilter : key = "where" → ReadAlike (Option.map Filter.outline)
      (d.operators.readFilter? (some v)) (d.operators.readFilter? (some w)))
    (hgroups : key = "group" → d.AlikeAt summary (.clauses .level) v w)
    (hselect : key = "select" → d.AlikeAt summary (.select s) v w) :
    d.AlikeAt summary (.clauses s) (.map (before ++ (key, v) :: after))
      (.map (before ++ (key, w) :: after)) := by
  cases s with
  | query =>
    intro expected depth
    exact readQuery_replaced hkey hfilter (fun hk => hgroups hk depth) fun hk t => hselect hk t depth
  | level =>
    intro depth
    have hlevel : key ∈ ["where", "group", "select", "aggregates"] :=
      List.mem_append_left ["aggregates"] hkey
    refine readGroups_replaced hlevel hfilter (fun hk => hgroups hk _) hselect ?_
    rintro rfl
    exact absurd hkey (by decide)

theorem alikeAt_under {s : Scope} {before after : Row} {key : String}
    (h : d.AlikeAt summary (.entry s) v w) :
    d.AlikeAt summary (.select s) (.map (before ++ (key, v) :: after))
      (.map (before ++ (key, w) :: after)) := by
  cases s with
  | query =>
    intro t depth
    rw [readSelect, readSelect, readSelectEntries_eq_foldlM, readSelectEntries_eq_foldlM]
    exact foldlM_putEntry_replaced (h t depth key) before after []
  | level =>
    intro keys
    exact @foldlM_putEntry_replaced (fun _ v => d.operators.readGroupSelection v) _ key v w h before
      after []

theorem alikeAt_listed {s : Scope} {front rest : List Value} {before after : Row} {key : String}
    (h : d.AlikeAt summary (.entry s) v w) :
    d.AlikeAt summary (.select s) (.list (front ++ .map (before ++ (key, v) :: after) :: rest))
      (.list (front ++ .map (before ++ (key, w) :: after) :: rest)) := by
  cases s with
  | query =>
    intro t depth
    rw [readSelect, readSelect, readSelectItems_eq_foldlM, readSelectItems_eq_foldlM]
    refine readsItems_readSelectItem.foldlM_replaced (fun v hname hmap acc acc' => ?_) (h t depth key)
      before after front rest
    cases v with
    | string name => exact absurd rfl (hname name)
    | map entries => exact absurd rfl (hmap entries)
    | _ => rfl
  | level =>
    intro keys
    refine @ReadsItems.foldlM_replaced _ _ _ _ OperatorTable.readsItems_readGroupItem
      (fun v hname hmap acc acc' => ?_) key v w h before after front rest
    cases v with
    | string name => exact absurd rfl (hname name)
    | map entries => exact absurd rfl (hmap entries)
    | _ => rfl

/-- **Wherever quoted data is replaced, what is read there has the same outline.** -/
theorem alikeAt_of_requotesAt (hliteral : d.operators.contains "$literal" = true) {β : Type}
    {kept : Value → β} (hsummary : ∀ v w, kept v = kept w → summary v = summary w) {p : Position}
    (h : d.operators.RequotesAt kept p v w) : d.AlikeAt summary p v w := by
  -- on the way down to the expression: every rule keeps what is read at its own position
  induction h with
  | filter h =>
    exact alikeAt_clauses (by decide) (fun _ => OperatorTable.readFilter?_requoted hliteral h)
      (fun hk => absurd hk (by decide)) (fun hk => absurd hk (by decide))
  | group _ ih =>
    exact alikeAt_clauses (by decide) (fun hk => absurd hk (by decide)) (fun _ => ih)
      (fun hk => absurd hk (by decide))
  | select _ ih =>
    exact alikeAt_clauses (by decide) (fun hk => absurd hk (by decide))
      (fun hk => absurd hk (by decide)) (fun _ => ih)
  | aggregate hkept h =>
    intro depth
    exact readGroups_replaced (by decide) (fun hk => absurd hk (by decide))
      (fun hk => absurd hk (by decide)) (fun hk => absurd hk (by decide))
      fun _ => OperatorTable.readAggregates_requoted hliteral (hsummary _ _ hkept) h
  | under _ ih => exact alikeAt_under ih
  | listed _ ih => exact alikeAt_listed ih
  | @expression s v w hv h =>
    cases s with
    | query => exact readSelection_expression_alike hliteral hv h
    | level => exact OperatorTable.readGroupSelection_requoted hliteral hv h
  | subquery hv h ih =>
    intro t depth key
    obtain ⟨entries, entries', rfl, rfl, htag⟩ := h.exists_maps
    exact readSelection_query_alike htag hv fun target => ih (some target) (depth + 1)

/-! ## 6. Documents -/

theorem normalize_requoted (hliteral : d.operators.contains "$literal" = true) {β : Type}
    {kept : Value → β} (hsummary : ∀ v w, kept v = kept w → summary v = summary w)
    (h : d.operators.RequotesAt kept (.clauses .query) v w) :
    ReadAlike (QueryOf.outline summary) (d.normalize v) (d.normalize w) := by
  rw [normalize, normalize]
  refine (alikeAt_of_requotesAt hliteral hsummary h none 1).bind fun q q' hq => ?_
  have hid : (q.outline summary).id = (q'.outline summary).id := by rw [hq]
  have hempty : (q.outline summary).groups.isEmpty = (q'.outline summary).groups.isEmpty := by
    rw [hq]
  rw [QueryOf.outline, QueryOf.outline] at hid
  rw [QueryOf.outline, QueryOf.outline, List.isEmpty_map, List.isEmpty_map] at hempty
  rw [hid, hempty]
  split_ifs
  · exact .error (.refl _)
  · exact .ok hq

/-- The query of a document, checked against the schema. -/
def check (d : Dialect) (v : Value) : Except QueryError Unit := do
  let q ← d.normalize v
  d.schema.validate q

theorem check_requoted_once (hliteral : d.operators.contains "$literal" = true)
    (h : d.operators.RequotesAt pluckedHeads (.clauses .query) v w) :
    ReadAlike id (d.check v) (d.check w) := by
  have hplucks : ∀ v w, pluckedHeads v = pluckedHeads w → plucks v = plucks w := by
    intro v w hheads
    rw [plucks, plucks, hheads]
  refine (normalize_requoted hliteral hplucks h).bind fun q q' hq => ?_
  rw [← Schema.validate_outline q, hq, Schema.validate_outline]
  exact ReadAlike.of_eq id rfl

/-- **Quoted data is not inspected.**  With other operands of `$literal`, at any place in a document,
it is read or refused as before, and what is read has the same form.  It is also accepted or refused
as before by validation, if every aggregate plucks the names that it plucked; outside of aggregates
any operand will do. -/
theorem check_requoted (d : Dialect) (hliteral : d.operators.get? "$literal" = some (.builtIn .literal))
    (v w : Value) :
    (Relation.ReflTransGen (d.operators.RequotesAt (fun _ => ()) (.clauses .query)) v w →
      ReadAlike (QueryOf.outline fun _ => .null) (d.normalize v) (d.normalize w)) ∧
    (Relation.ReflTransGen (d.operators.RequotesAt pluckedHeads (.clauses .query)) v w →
      ReadAlike id (d.check v) (d.check w)) := by
  have hcontains : d.operators.contains "$literal" = true := by
    rw [OperatorTable.contains, hliteral]
    rfl
  constructor
  · intro h
    induction h with
    | refl => exact ReadAlike.of_eq _ rfl
    | tail _ hstep ih => exact ih.trans_alike (normalize_requoted hcontains (fun _ _ _ => rfl) hstep)
  · intro h
    induction h with
    | refl => exact ReadAlike.of_eq _ rfl
    | tail _ hstep ih => exact ih.trans_alike (check_requoted_once hcontains hstep)

/-- A document of people that quotes three times: in the filter of a query below the root, and in
the selection and an aggregate of a group level. -/
def quotingDocument (inFilter inSelection inAggregate : Value) : Value :=
  peopleGrouped
    (.map [
      ("aggregates", .map [("n", .map [("$sum", .map [("$literal", inAggregate)])])]),
      ("by", .string "age"), ("select", .map [("note", .map [("$literal", inSelection)])])])
    (.list [.string "name", .map [("friends", .map [
      ("select", .string "name"),
      ("where", .map [("age", .map [("$gt", .map [("$literal", inFilter)])])])])]])

section

variable {β : Type} {kept : Value → β} (a b c : Value)

theorem requotesAt_filter (a' : Value) :
    people.operators.RequotesAt kept (.clauses .query) (quotingDocument a b c)
      (quotingDocument a' b c) := by
  have hfilter : FilterRequotes (.map [("age", .map [("$gt", .map [("$literal", a)])])])
      (.map [("age", .map [("$gt", .map [("$literal", a')])])]) :=
    @FilterRequotes.condition [] [] _ _ _ (by decide) (@Value.Requotes.entry [] [] _ _ _ .quoted)
  have hquery : people.operators.RequotesAt kept (.clauses .query)
      (.map [("select", .string "name"), ("where", .map [("age", .map [("$gt",
        .map [("$literal", a)])])])])
      (.map [("select", .string "name"), ("where", .map [("age", .map [("$gt",
        .map [("$literal", a')])])])]) :=
    @OperatorTable.RequotesAt.filter _ _ _ _ [("select", .string "name")] [] _ _ hfilter
  exact @OperatorTable.RequotesAt.select _ _ _ _ [("group", _)] [("type", _)] _ _
    (@OperatorTable.RequotesAt.listed _ _ _ _ [.string "name"] [] [] [] _ _ _ (.subquery rfl hquery))

theorem requotesAt_selection (b' : Value) :
    people.operators.RequotesAt kept (.clauses .query) (quotingDocument a b c)
      (quotingDocument a b' c) :=
  @OperatorTable.RequotesAt.group _ _ _ _ [] [("select", _), ("type", _)] _ _
    (@OperatorTable.RequotesAt.select _ _ _ _ [("aggregates", _), ("by", _)] [] _ _
      (@OperatorTable.RequotesAt.under _ _ _ _ [] [] _ _ _ (.expression rfl .quoted)))

theorem requotesAt_aggregate (c' : Value) (h : kept (.map [("$sum", .map [("$literal", c)])]) =
      kept (.map [("$sum", .map [("$literal", c')])])) :
    people.operators.RequotesAt kept (.clauses .query) (quotingDocument a b c)
      (quotingDocument a b c') :=
  @OperatorTable.RequotesAt.group _ _ _ _ [] [("select", _), ("type", _)] _ _
    (@OperatorTable.RequotesAt.aggregate _ _ _ [] [("by", _), ("select", _)] [] [] _ _ _ h
      (@Value.Requotes.entry [] [] _ _ _ .quoted))

end

/-- Data that looks like a use of `$pluck`. -/
def pluckLike : Value := .map [("$pluck", .string "nosuch")]

theorem check_requoted_people :
    people.check (quotingDocument .null .null .null) = .ok () ∧
      people.check (quotingDocument pluckLike pluckLike (.list [.int 1])) = .ok () ∧
      ReadAlike (QueryOf.outline fun _ => .null)
        (people.normalize (quotingDocument .null .null .null))
        (people.normalize (quotingDocument .null .null (.list [pluckLike]))) := by
  have h : people.check (quotingDocument .null .null .null) = .ok () := by decide +kernel
  have hsteps : Relation.ReflTransGen (people.operators.RequotesAt pluckedHeads (.clauses .query))
      (quotingDocument .null .null .null)
      (quotingDocument pluckLike pluckLike (.list [.int 1])) :=
    .head (requotesAt_filter _ _ _ pluckLike) (.head (requotesAt_selection _ _ _ pluckLike)
      (.single (requotesAt_aggregate _ _ _ (.list [.int 1]) rfl)))
  have hcheck := (check_requoted people rfl _ _).2 hsteps
  have hform := (check_requoted people rfl _ _).1
    (.single (requotesAt_aggregate .null .null .null (.list [pluckLike]) rfl))
  rw [h] at hcheck
  cases hcheck with
  | ok _ => exact ⟨h, rfl, hform⟩

/-- Validation looks for plucked names also in the quoted data of an aggregate. -/
theorem quotedPluck_refused :
    people.operators.RequotesAt (fun _ => ()) (.clauses .query)
        (quotingDocument .null .null .null) (quotingDocument .null .null (.list [pluckLike])) ∧
      people.check (quotingDocument .null .null .null) = .ok () ∧
      people.check (quotingDocument .null .null (.list [pluckLike])) =
        .error (.unknownField "Person.group" "nosuch") := by
  refine ⟨requotesAt_aggregate _ _ _ _ rfl, ?_, ?_⟩
  all_goals decide +kernel

end Dialect

end GraphQuery
