/-
# Every shorthand means its long form

The document of a query is full of places where something may be abbreviated: its own clauses, those
of the queries in its selection, at any depth, and those of its group levels.  `Dialect.Expands` goes
down to such a place, with the type of the query around it, and writes one shorthand out;
`Dialect.WritesOut` does so in a whole document, on the type that the document names.

**`normalize_writtenOut`**: a document that is normalized gives the same query with any number of its
shorthands written out, one after the other.

* A relationship that is selected by its name becomes the query for everything of its resources.
  That query, and any query that only has a selection or only has group levels, is a map with a
  single entry.  So no operator may be called `select` or `group`: its tag would make such a query an
  expression.
* In a group level `*` stands for its keys and a name for itself.  What a query selects in this way
  a group level does not (`groupLevels_differ`).
-/
import GraphQuery.Proofs.Query.Shorthands
import Mathlib.Logic.Relation

namespace GraphQuery

/-! ## 1. Queries with one entry -/

namespace Dialect

variable {d : Dialect}

/-- A query has a selection or group levels. -/
theorem select_or_group_of_readQuery {expected : Option String} {depth : Nat} {entries : Row}
    {q : Query} (h : d.readQuery expected depth (.map entries) = .ok q) :
    "select" ∈ Keyed.keys entries ∨ "group" ∈ Keyed.keys entries := by
  obtain ⟨-, -, -, ⟨t, select?, -, hselect?, hselect⟩, -, hgroups, -⟩ :=
    readQuery_map_eq_ok_iff.mp h
  by_contra hnot
  rw [not_or, ← Keyed.get?_eq_none_iff, ← Keyed.get?_eq_none_iff] at hnot
  rw [readSelectAmong_eq, hnot.1, Option.mapM_none, pure_eq_ok] at hselect?
  rw [readGroupsAmong_eq, hnot.2] at hgroups
  rw [← hselect?, ← Except.ok.inj hgroups] at hselect
  cases hselect

/-- **The document of a query is no expression**, unless an operator has the name of a clause that a
query may consist of. -/
theorem isExpression_of_readQuery (hselect : d.operators.contains "select" = false)
    (hgroup : d.operators.contains "group" = false) {expected : Option String} {depth : Nat}
    {v : Value} {q : Query} (h : d.readQuery expected depth v = .ok q) :
    d.operators.isExpression v = false := by
  obtain ⟨entries, rfl⟩ := exists_map_of_readQuery h
  have hkey := select_or_group_of_readQuery h
  -- an expression has a single entry, and here that is the selection or the group levels
  match entries, hkey with
  | [(tag, operand)], hkey =>
    have hcontains : d.operators.contains tag = false := by
      rcases hkey with hkey | hkey
      · obtain rfl : "select" = tag := List.mem_singleton.mp hkey
        exact hselect
      · obtain rfl : "group" = tag := List.mem_singleton.mp hkey
        exact hgroup
    exact hcontains
  | [], hkey => exact absurd hkey (by simp [Keyed.keys])
  | _ :: _ :: _, _ => rfl

/-- Everything of the resources of a type may be asked for with `*`. -/
theorem readQuery_star {target : String} {depth : Nat} :
    Keeps (d.readRelated target depth)
      (d.readQuery (some target) depth (.map [("select", .string "*")])) := by
  refine keeps_iff.mpr fun q h => ?_
  rw [readRelated, check_bind_eq_ok, checkDepth_eq_ok_iff, bind_eq_ok] at h
  obtain ⟨hdepth, t, ht, hq⟩ := h
  rw [pure_eq_ok] at hq
  subst hq
  refine readQuery_map_eq_ok_iff.mpr ⟨hdepth, by decide, rfl,
    ⟨t, some (withAllFields t []), requireType_eq_ok_iff.mp ht, ?_, rfl⟩, rfl, ?_, rfl, rfl, rfl⟩
  · rw [readSelectAmong_eq]
    rfl
  · rw [readGroupsAmong_eq]
    rfl

/-! ## 2. Clauses of queries -/

/-- A query is read as it was if each of its parts is. -/
theorem readQuery_keeps {t : ResourceType} {expected : Option String} {depth : Nat}
    {entries entries' : Row} {q : Query}
    (hcheck : Keeps (Section.query.check entries) (Section.query.check entries'))
    (htype : Keyed.get? "type" entries' = Keyed.get? "type" entries)
    (hid : Keyed.get? "id" entries' = Keyed.get? "id" entries)
    (hgroups : Keeps (d.readGroupsAmong depth entries) (d.readGroupsAmong depth entries'))
    (hselect : Keeps (d.readSelectAmong t depth entries) (d.readSelectAmong t depth entries'))
    (hclauses : ClausesKept d.operators entries entries')
    (h : d.readQuery expected depth (.map entries) = .ok q)
    (ht : d.schema.type? q.typeName = some t) :
    d.readQuery expected depth (.map entries') = .ok q := by
  obtain ⟨hdepth, hkeys, hname, ⟨t', select?, ht', hselect?, hrequire⟩, hread, hlevels, hfilter,
    horder, hslice⟩ := readQuery_map_eq_ok_iff.mp h
  obtain rfl := Option.some.inj (ht.symm.trans ht')
  refine readQuery_map_eq_ok_iff.mpr ⟨hdepth, hcheck.eq_ok hkeys, ?_,
    ⟨t, select?, ht, hselect.eq_ok hselect?, hrequire⟩, ?_, hgroups.eq_ok hlevels,
    hclauses.filter.eq_ok hfilter, hclauses.order.eq_ok horder, hclauses.slice.eq_ok hslice⟩
  · unfold readTypeName
    rw [htype]
    exact hname
  · unfold readId
    rw [hid]
    exact hread

theorem readSelectAmong_congr {t : ResourceType} {depth : Nat} {entries entries' : Row}
    (h : Keyed.get? "select" entries' = Keyed.get? "select" entries) :
    d.readSelectAmong t depth entries' = d.readSelectAmong t depth entries := by
  rw [readSelectAmong_eq, readSelectAmong_eq, h]

/-- The selection of a query may be replaced by one that is read as it was. -/
theorem readSelectAmong_insert {t : ResourceType} {depth : Nat} {entries : Row} {v w : Value}
    (hv : Keyed.get? "select" entries = some v)
    (h : Keeps (d.readSelect t depth v) (d.readSelect t depth w)) :
    Keeps (d.readSelectAmong t depth entries)
      (d.readSelectAmong t depth (Keyed.insert "select" w entries)) := by
  rw [readSelectAmong_eq, readSelectAmong_eq, hv, Keyed.get?_insert_self, Option.mapM_some,
    Option.mapM_some]
  exact h.map

end Dialect

/-! ## 3. Writing a shorthand out -/

/-- A site in the document of a query, with the type of the query around it: a query, its selection,
one item of a selection, or what stands under a key of it. -/
inductive Site where
  | query (t : ResourceType)
  | select (t : ResourceType)
  | item (t : ResourceType)
  | entry (t : ResourceType) (key : String)

/-- One shorthand of the document at a site is written out. -/
inductive Dialect.Expands (d : Dialect) : Site → Value → Value → Prop
  | clauses {t : ResourceType} {entries entries' : Row} (h : ClausesExpand entries entries') :
      Expands d (.query t) (.map entries) (.map entries')
  | group {t : ResourceType} {entries : Row} {v w : Value}
      (hv : Keyed.get? "group" entries = some v) (h : GroupExpands v w) :
      Expands d (.query t) (.map entries) (.map (Keyed.insert "group" w entries))
  | select {t : ResourceType} {entries : Row} {v w : Value}
      (hv : Keyed.get? "select" entries = some v) (h : Expands d (.select t) v w) :
      Expands d (.query t) (.map entries) (.map (Keyed.insert "select" w entries))
  | merged {t : ResourceType} {items : List Value} :
      Expands d (.select t) (.list items) (.map (Row.merged t.fieldRow items))
  | listed {t : ResourceType} {front rest : List Value} {v w : Value}
      (h : Expands d (.item t) v w) :
      Expands d (.select t) (.list (front ++ v :: rest)) (.list (front ++ w :: rest))
  | alone {t : ResourceType} {v w : Value} (h : Expands d (.item t) v w) :
      Expands d (.select t) v w
  | relationship {t : ResourceType} {name : String} {r : Relationship} (hname : name ≠ "*")
      (hr : t.fieldKind name = .relationship r) :
      Expands d (.item t) (.string name) (.map [(name, .map [("select", .string "*")])])
  | under {t : ResourceType} {before after : Row} {key : String} {v w : Value}
      (h : Expands d (.entry t key) v w) :
      Expands d (.item t) (.map (before ++ (key, v) :: after)) (.map (before ++ (key, w) :: after))
  | related {t : ResourceType} {key : String} {r : Relationship}
      (hr : t.fieldKind key = .relationship r) :
      Expands d (.entry t key) (.string key) (.map [("select", .string "*")])
  | subquery {t target : ResourceType} {key : String} {r : Relationship} {v w : Value}
      (hv : d.operators.isExpression v = false) (hr : t.relationship? key = some r)
      (htarget : d.schema.type? r.target = some target) (h : Expands d (.query target) v w) :
      Expands d (.entry t key) v w

namespace Dialect

/-- What is read at a site stays. -/
def KeptAt (d : Dialect) : Site → Value → Value → Prop
  | .query t, v, w => ∀ expected depth q, d.readQuery expected depth v = .ok q →
      d.schema.type? q.typeName = some t → d.readQuery expected depth w = .ok q
  | .select t, v, w => ∀ depth, Keeps (d.readSelect t depth v) (d.readSelect t depth w)
  | .item t, v, w => ∀ depth select,
      Keeps (d.readSelectItem t depth select v) (d.readSelectItem t depth select w)
  | .entry t key, v, w => ∀ depth,
      Keeps (d.readSelection t depth key v) (d.readSelection t depth key w)

variable {d : Dialect} {t : ResourceType}

theorem keptAt_clauses {entries entries' : Row} (h : ClausesExpand entries entries') :
    d.KeptAt (.query t) (.map entries) (.map entries') := by
  intro expected depth q
  have hget : ∀ key, key ∉ sharedClauses → _ := fun _ hkey => h.get?_of_notMem hkey
  refine readQuery_keeps (h.check (by decide)) (hget _ (by decide)) (hget _ (by decide)) ?_ ?_
    (h.kept d.operators)
  · rw [readGroupsAmong_congr (hget "group" (by decide))]
    exact .refl
  · rw [readSelectAmong_congr (hget "select" (by decide))]
    exact .refl

theorem keptAt_group {entries : Row} {v w : Value} (hv : Keyed.get? "group" entries = some v)
    (h : GroupExpands v w) :
    d.KeptAt (.query t) (.map entries) (.map (Keyed.insert "group" w entries)) := by
  intro expected depth q
  have hget : ∀ key, "group" ≠ key → _ := fun _ hkey => Keyed.get?_insert_of_ne hkey w entries
  refine readQuery_keeps (Section.check_insert (by decide) w entries) (hget _ (by decide))
    (hget _ (by decide)) (readGroupsAmong_insert hv (readGroups_expanded h depth)) ?_
    (.insert d.operators (by decide) w entries)
  rw [readSelectAmong_congr (hget "select" (by decide))]
  exact .refl

theorem keptAt_query_select {entries : Row} {v w : Value}
    (hv : Keyed.get? "select" entries = some v) (h : d.KeptAt (.select t) v w) :
    d.KeptAt (.query t) (.map entries) (.map (Keyed.insert "select" w entries)) := by
  intro expected depth q
  have hget : ∀ key, "select" ≠ key → _ := fun _ hkey => Keyed.get?_insert_of_ne hkey w entries
  refine readQuery_keeps (Section.check_insert (by decide) w entries) (hget _ (by decide))
    (hget _ (by decide)) ?_ (readSelectAmong_insert hv (h depth))
    (.insert d.operators (by decide) w entries)
  rw [readGroupsAmong_congr (hget "group" (by decide))]
  exact .refl

theorem keptAt_listed {front rest : List Value} {v w : Value} (h : d.KeptAt (.item t) v w) :
    d.KeptAt (.select t) (.list (front ++ v :: rest)) (.list (front ++ w :: rest)) := by
  intro depth
  rw [readSelect, readSelect, readSelectItems_eq_foldlM, readSelectItems_eq_foldlM]
  exact SameUnless.foldlM_at (h depth) front rest []

/-- An item is a name or a map, and is written out as a map. -/
theorem Expands.exists_item {v w : Value} (h : d.Expands (.item t) v w) :
    (∀ items, v ≠ .list items) ∧ ∃ entries, w = .map entries := by
  cases h with
  | relationship _ _ => exact ⟨by simp, _, rfl⟩
  | under _ => exact ⟨by simp, _, rfl⟩

/-- A name or a map by itself is read as the only item. -/
theorem readSelect_keeps_item {depth : Nat} {v : Value} (hv : ∀ items, v ≠ .list items) :
    Keeps (d.readSelect t depth v) (d.readSelectItem t depth [] v) := by
  cases v with
  | list items => exact absurd rfl (hv items)
  | string name =>
    rw [readSelect]
    exact .refl
  | map entries =>
    rw [readSelect]
    exact .refl
  | _ =>
    simp only [readSelect]
    exact .error trivial

theorem keptAt_alone {v w : Value} (hforms : d.Expands (.item t) v w) (h : d.KeptAt (.item t) v w) :
    d.KeptAt (.select t) v w := by
  intro depth
  obtain ⟨hv, entries, rfl⟩ := hforms.exists_item
  refine keeps_iff.mpr fun select hread => ?_
  have hitem := (readSelect_keeps_item hv).eq_ok hread
  rw [readSelect]
  exact (h depth []).eq_ok hitem

theorem keptAt_under {before after : Row} {key : String} {v w : Value}
    (h : d.KeptAt (.entry t key) v w) :
    d.KeptAt (.item t) (.map (before ++ (key, v) :: after)) (.map (before ++ (key, w) :: after)) := by
  intro depth select
  have hput : ∀ acc, Keeps (putEntry (d.readSelection t depth) acc (key, v))
      (putEntry (d.readSelection t depth) acc (key, w)) := fun _ => (h depth).bind_same
  rw [readSelectItem, readSelectItem, readSelectEntries_eq_foldlM, readSelectEntries_eq_foldlM]
  exact SameUnless.foldlM_at hput before after select

/-- A map that is no expression is read as a query under the name of a relationship. -/
theorem readSelection_query {depth : Nat} {key : String} {r : Relationship} {entries : Row}
    (hexpr : d.operators.isExpression (.map entries) = false) (hr : t.relationship? key = some r) :
    d.readSelection t depth key (.map entries) =
      (d.readQuery (some r.target) (depth + 1) (.map entries)).map .subquery := by
  rw [readSelection, readEntry, hexpr, hr]
  rfl

/-- A relationship by its name is the query for everything of its resources. -/
theorem keptAt_related (hselect : d.operators.contains "select" = false) {key : String}
    {r : Relationship} (hr : t.fieldKind key = .relationship r) :
    d.KeptAt (.entry t key) (.string key) (.map [("select", .string "*")]) := by
  intro depth
  have hname : d.readSelection t depth key (.string key) =
      (d.readRelated r.target (depth + 1)).map .subquery := by
    rw [readSelection_string, readSource, hr]
    exact if_pos rfl
  have hexpr : d.operators.isExpression (.map [("select", .string "*")]) = false := hselect
  rw [hname, readSelection_query hexpr (ResourceType.relationship?_of_fieldKind hr)]
  exact readQuery_star.map

theorem keptAt_relationship (hselect : d.operators.contains "select" = false) {name : String}
    {r : Relationship} (hname : name ≠ "*") (hr : t.fieldKind name = .relationship r) :
    d.KeptAt (.item t) (.string name) (.map [(name, .map [("select", .string "*")])]) := by
  intro depth select
  have hput : Keeps (putEntry (d.readSelection t depth) select (name, .string name))
      (putEntry (d.readSelection t depth) select (name, .map [("select", .string "*")])) :=
    (keptAt_related hselect hr depth).bind_same
  rw [readsItems_readSelectItem.name select name hname, readsItems_readSelectItem.map,
    List.foldlM_cons]
  exact keeps_iff.mpr fun next hnext => by rw [hput.eq_ok hnext]; rfl

/-- Only a map is written out as a query. -/
theorem Expands.exists_map {v w : Value} (h : d.Expands (.query t) v w) :
    ∃ entries, v = .map entries := by
  cases h with
  | clauses _ => exact ⟨_, rfl⟩
  | group _ _ => exact ⟨_, rfl⟩
  | select _ _ => exact ⟨_, rfl⟩

/-- A query below the root stays one: written out it is still no expression. -/
theorem keptAt_subquery (hselect : d.operators.contains "select" = false)
    (hgroup : d.operators.contains "group" = false) {target : ResourceType} {key : String}
    {r : Relationship} {v w : Value} (hforms : d.Expands (.query target) v w)
    (hexpr : d.operators.isExpression v = false) (hr : t.relationship? key = some r)
    (htarget : d.schema.type? r.target = some target) (h : d.KeptAt (.query target) v w) :
    d.KeptAt (.entry t key) v w := by
  intro depth
  obtain ⟨entries, rfl⟩ := hforms.exists_map
  refine keeps_iff.mpr fun s hs => ?_
  rw [readSelection_query hexpr hr, map_eq_ok] at hs
  obtain ⟨q, hq, rfl⟩ := hs
  have htype : d.schema.type? q.typeName = some target := by
    obtain ⟨-, -, hname, -⟩ := readQuery_map_eq_ok_iff.mp hq
    rw [readTypeName_eq_target hname]
    exact htarget
  have hw := h _ _ q hq htype
  -- written out it may have lost all entries but one
  have hexpr' := isExpression_of_readQuery hselect hgroup hw
  obtain ⟨entries', rfl⟩ := exists_map_of_readQuery hw
  rw [readSelection_query hexpr' hr, hw]
  rfl

/-- **Wherever a shorthand is written out, what is read there stays.** -/
theorem keptAt_of_expands (hselect : d.operators.contains "select" = false)
    (hgroup : d.operators.contains "group" = false) {site : Site} {v w : Value}
    (h : d.Expands site v w) : d.KeptAt site v w := by
  -- on the way down to the shorthand: every rule keeps what is read at its own site
  induction h with
  | clauses h => exact keptAt_clauses h
  | group hv h => exact keptAt_group hv h
  | select hv _ ih => exact keptAt_query_select hv ih
  | merged =>
    exact fun depth => keeps_iff.mpr fun select hread => readSelect_merged hread
  | listed _ ih => exact keptAt_listed ih
  | alone h ih => exact keptAt_alone h ih
  | relationship hname hr => exact keptAt_relationship hselect hname hr
  | under _ ih => exact keptAt_under ih
  | related hr => exact keptAt_related hselect hr
  | subquery hexpr hr htarget h ih => exact keptAt_subquery hselect hgroup h hexpr hr htarget ih

/-! ## 4. Documents -/

/-- The type that a document names. -/
def documentType? (d : Dialect) : Value → Option ResourceType
  | .map entries =>
    match Keyed.get? "type" entries with
    | some (.string name) => d.schema.type? name
    | _ => none
  | _ => none

/-- One shorthand of a document is written out, wherever it stands. -/
def WritesOut (d : Dialect) (v w : Value) : Prop :=
  ∃ t, d.documentType? v = some t ∧ d.Expands (.query t) v w

theorem documentType?_of_readQuery {depth : Nat} {v : Value} {q : Query}
    (h : d.readQuery none depth v = .ok q) :
    d.documentType? v = d.schema.type? q.typeName := by
  obtain ⟨entries, rfl⟩ := exists_map_of_readQuery h
  obtain ⟨-, -, hname, -⟩ := readQuery_map_eq_ok_iff.mp h
  unfold readTypeName at hname
  split at hname
  · next htarget => cases htarget
  · next name hget _ =>
    rw [← Except.ok.inj hname]
    simp only [documentType?, hget]
  · cases hname
  · next htarget => cases htarget
  · cases hname

theorem normalize_of_writesOut (hselect : d.operators.contains "select" = false)
    (hgroup : d.operators.contains "group" = false) {v w : Value} {q : Query}
    (h : d.normalize v = .ok q) (hw : d.WritesOut v w) : d.normalize w = .ok q := by
  obtain ⟨t, ht, hexpands⟩ := hw
  obtain ⟨q', hread, hrest⟩ := bind_eq_ok.mp h
  rw [documentType?_of_readQuery hread] at ht
  rw [normalize, keptAt_of_expands hselect hgroup hexpands none 1 q' hread ht]
  exact hrest

/-- The type of people. -/
def person : ResourceType where
  name := "Person"
  attributes := [("age", ⟨"age", "Int"⟩), ("name", ⟨"name", "String"⟩)]
  relationships := [("friends", ⟨"friends", "Person", .many, some "friends"⟩)]

/-- A document of people, with a group level and a selection. -/
def peopleGrouped (level select : Value) : Value :=
  .map [("group", level), ("select", select), ("type", .string "Person")]

/-- The fields of people, and their friends as a document asks for them. -/
def fieldsAndFriends (friends : Value) : Row :=
  [("age", .string "age"), ("friends", friends), ("id", .string "id"), ("name", .string "name")]

/-- A document with shorthands at the root, in a query below it, and in a group level. -/
def friendsDocument : Value :=
  peopleGrouped (.map [("by", .list [.string "age"])])
    (.list [.string "*", .map [("friends", .map [("limit", .int 2), ("select", .string "friends")])]])

/-- The same document written out. -/
def friendsWrittenOut : Value :=
  peopleGrouped (.map [("by", .list [.string "age"]), ("select", .map [("age", .string "age")])])
    (.map (fieldsAndFriends (.map [
      ("select", .map [("friends", .map [("select", .string "*")])]),
      ("slice", .map [("limit", .int 2)])])))

theorem writesOut_select {level v w : Value} (h : people.Expands (.select person) v w) :
    people.WritesOut (peopleGrouped level v) (peopleGrouped level w) :=
  ⟨person, rfl, .select rfl h⟩

theorem writesOut_group {select v w : Value} (h : GroupExpands v w) :
    people.WritesOut (peopleGrouped v select) (peopleGrouped w select) :=
  ⟨person, rfl, .group rfl h⟩

theorem expands_friends {v w : Value} (hv : people.operators.isExpression v = false)
    (h : people.Expands (.query person) v w) :
    people.Expands (.select person) (.map (fieldsAndFriends v)) (.map (fieldsAndFriends w)) :=
  .alone (@Expands.under people person [("age", .string "age")]
    [("id", .string "id"), ("name", .string "name")] "friends" v w (.subquery hv rfl rfl h))

theorem friendsDocument_writtenOut :
    Relation.ReflTransGen people.WritesOut friendsDocument friendsWrittenOut := by
  have hmerged : Row.merged person.fieldRow [.string "*", .map [("friends", .map [
      ("limit", .int 2), ("select", .string "friends")])]] =
      fieldsAndFriends (.map [("limit", .int 2), ("select", .string "friends")]) := by
    decide +kernel
  have hcounts : ClausesExpand [("limit", .int 2), ("select", .string "friends")]
      [("select", .string "friends"), ("slice", .map [("limit", .int 2)])] := .counts rfl
  have hrelated : people.Expands (.query person)
      (.map [("select", .string "friends"), ("slice", .map [("limit", .int 2)])])
      (.map [("select", .map [("friends", .map [("select", .string "*")])]),
        ("slice", .map [("limit", .int 2)])]) :=
    .select rfl (.alone (.relationship (by decide) rfl))
  have hlevel : GroupExpands (.map [("by", .list [.string "age"])])
      (.map [("by", .list [.string "age"]), ("select", .map [("age", .string "age")])]) :=
    .noSelect rfl rfl (Or.inl rfl)
  refine .head (writesOut_select .merged) ?_
  rw [hmerged]
  refine .head (writesOut_select (expands_friends rfl (.clauses hcounts))) ?_
  refine .head (writesOut_select (expands_friends rfl hrelated)) ?_
  exact .single (writesOut_group hlevel)

/-- The query that both write. -/
def friendsQuery : Query where
  typeName := "Person"
  select := [("age", .field "age"),
    ("friends", .subquery {
      typeName := "Person"
      select := [("friends", .subquery {
        typeName := "Person"
        select := [("age", .field "age"), ("id", .field "id"), ("name", .field "name")] })]
      slice := { limit := some 2 } }),
    ("id", .field "id"), ("name", .field "name")]
  groups := [{ keys := ["age"], select := [("age", .field "age")] }]

/-- **Every shorthand means its long form.**  A document that is normalized gives the same query when
any number of its shorthands are written out, one after the other. -/
theorem normalize_writtenOut (d : Dialect) (hselect : d.operators.contains "select" = false)
    (hgroup : d.operators.contains "group" = false) (v w : Value) (q : Query)
    (h : d.normalize v = .ok q) (hw : Relation.ReflTransGen d.WritesOut v w) :
    d.normalize w = .ok q := by
  induction hw with
  | refl => exact h
  | tail _ hstep ih => exact normalize_of_writesOut hselect hgroup ih hstep

theorem normalize_writtenOut_friends :
    people.normalize friendsDocument = .ok friendsQuery ∧
      Relation.ReflTransGen people.WritesOut friendsDocument friendsWrittenOut ∧
      people.normalize friendsWrittenOut = .ok friendsQuery := by
  have h : people.normalize friendsDocument = .ok friendsQuery := by decide +kernel
  exact ⟨h, friendsDocument_writtenOut, normalize_writtenOut people (by decide) (by decide)
    friendsDocument friendsWrittenOut friendsQuery h friendsDocument_writtenOut⟩

/-- A document of people, grouped by age, with a selection of the group level. -/
def agesDocument (select : Value) : Value :=
  peopleGrouped (.map [("by", .string "age"), ("select", select)]) (.list [])

/-- The query for people, grouped by age, with a selection of the group level. -/
def agesQuery (select : Select) : Query where
  typeName := "Person"
  groups := [{ keys := ["age"], select }]

/-- The long forms of the selections of queries are not those of group levels: there `*` is not the
id and all attributes, and the name of a relationship is no query. -/
theorem groupLevels_differ :
    people.normalize (agesDocument (.list [.string "*"])) =
        .ok (agesQuery [("age", .field "age")]) ∧
      people.normalize (agesDocument (.map (Row.merged person.fieldRow [.string "*"]))) ≠
        .ok (agesQuery [("age", .field "age")]) ∧
      people.normalize (agesDocument (.list [.string "friends"])) =
        .ok (agesQuery [("friends", .field "friends")]) ∧
      people.normalize (agesDocument (.map [("friends", .map [("select", .string "*")])])) ≠
        .ok (agesQuery [("friends", .field "friends")]) := by
  refine ⟨?_, ?_, ?_, ?_⟩
  all_goals decide +kernel

end Dialect

end GraphQuery
