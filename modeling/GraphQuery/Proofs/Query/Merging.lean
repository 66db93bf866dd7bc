/-
# Lists of selected items and the maps they merge to

A selection may be a list of names and maps.  It means one map (`Row.merged`): the items are gone
through in order, a name stands for itself, `*` for a given row, a map for its entries, and of several
entries with one key the last one counts.

The readers of queries and of group levels go through the items in the same way (`ReadsItems`) and
differ in what they read under a key and in the row for `*`: on a type the id and all attributes
(`ResourceType.fieldRow`), in a group level its keys (`Row.ofFields`).  So one argument serves both:
after every item the merged row is read, entry by entry, as the selection of the items so far
(`ReadAs`).  Hence **the merged map is read as the list is** (`Dialect.readSelect_merged`,
`OperatorTable.readGroupSelect_merged`).

An entry that a later item replaces is read in the list and not in the map, so a map may be read
whose list is refused; the converse fails.
-/
import GraphQuery.Proofs.Query.Rereading

namespace GraphQuery

/-! ## 1. Merging -/

namespace Row

/-- The row after one more item; `all` is what `*` stands for. -/
def mergeItem (all row : Row) : Value → Row
  | .string "*" => Keyed.overlay row all
  | .string name => Keyed.insert name (.string name) row
  | .map entries => Keyed.overlay row entries
  | _ => row

/-- The row that the items merge to. -/
def merged (all : Row) (items : List Value) : Row := items.foldl (mergeItem all) []

/-- Every name under itself. -/
def ofNames (names : List String) : Row := names.map fun name => (name, Value.string name)

/-- The map of names to themselves. -/
def ofFields (names : List String) : Row := Keyed.ofList (ofNames names)

variable {all row : Row}

theorem mergeItem_name {name : String} (h : name ≠ "*") :
    mergeItem all row (.string name) = Keyed.insert name (.string name) row := by
  unfold mergeItem
  split
  · next heq => exact absurd (Value.string.inj heq) h
  · next heq => rw [Value.string.inj heq]
  · next heq => cases heq
  · next hname _ => exact absurd rfl (hname name)

theorem sorted_mergeItem (h : Keyed.Sorted row) (item : Value) :
    Keyed.Sorted (mergeItem all row item) := by
  unfold mergeItem
  split
  · exact h.overlay all
  · exact h.insert
  · next entries => exact h.overlay entries
  · exact h

theorem sorted_merged (items : List Value) : Keyed.Sorted (merged all items) := by
  have hfold : ∀ row, Keyed.Sorted row → Keyed.Sorted (items.foldl (mergeItem all) row) := by
    induction items with
    | nil => exact fun _ h => h
    | cons item rest ih => exact fun row h => ih _ (sorted_mergeItem h item)
  exact hfold [] List.Pairwise.nil

end Row

/-- What `*` stands for on a type: the id attribute and all declared attributes. -/
def ResourceType.fieldRow (t : ResourceType) : Row := Row.ofNames (t.idAttribute :: t.attributeNames)

/-! ## 2. Names that are read as fields -/

section Items

variable {read : String → Value → Except QueryError Selection}

namespace ReadAs

theorem ofNames {names : List String}
    (h : ∀ name ∈ names, read name (.string name) = .ok (.field name)) :
    ReadAs read (Row.ofNames names) (names.map fun name => (name, Selection.field name)) := by
  rw [ReadAs, Row.ofNames, List.forall₂_map_left_iff, List.forall₂_map_right_iff,
    List.forall₂_same]
  exact fun name hname => ⟨rfl, h name hname⟩

theorem ofFields {names : List String}
    (h : ∀ name ∈ names, read name (.string name) = .ok (.field name)) :
    ReadAs read (Row.ofFields names) (Select.ofFields names) :=
  overlay .nil ((ofNames h).foldlM_eq [])

end ReadAs

/-! ## 3. Readers of items -/

/-- The reader of items reads a map by its entries, a name as an entry, and `*` as a row. -/
structure ReadsItems (read : String → Value → Except QueryError Selection) (all : Row)
    (item : Select → Value → Except QueryError Select) : Prop where
  star : ∀ select, item select (.string "*") = all.foldlM (putEntry read) select
  name : ∀ select name, name ≠ "*" →
    item select (.string name) = putEntry read select (name, .string name)
  map : ∀ select entries, item select (.map entries) = entries.foldlM (putEntry read) select
  only : ∀ select v select', item select v = .ok select' →
    (∃ name, v = .string name) ∨ ∃ entries, v = .map entries

namespace ReadsItems

variable {all : Row} {item : Select → Value → Except QueryError Select}

/-- **One more item is merged as it is read.** -/
theorem readAs_mergeItem (hitem : ReadsItems read all item) {row : Row} {select select' : Select}
    {v : Value} (h : ReadAs read row select) (hv : item select v = .ok select') :
    ReadAs read (Row.mergeItem all row v) select' := by
  rcases hitem.only select v select' hv with ⟨name, rfl⟩ | ⟨entries, rfl⟩
  · by_cases hname : name = "*"
    · subst hname
      rw [hitem.star] at hv
      exact h.overlay hv
    · rw [hitem.name select name hname] at hv
      obtain ⟨s, hs, rfl⟩ := putEntry_eq_ok_iff.mp hv
      rw [Row.mergeItem_name hname]
      exact h.insert hs
  · rw [hitem.map] at hv
    exact h.overlay hv

/-- **The merged map is read as the items are.** -/
theorem foldlM_merged (hitem : ReadsItems read all item) {items : List Value} {select : Select}
    (h : items.foldlM item [] = .ok select) :
    (Row.merged all items).foldlM (putEntry read) [] = .ok select := by
  -- along the items, from any row and what it is read as
  have hfold : ∀ row acc, ReadAs read row acc → items.foldlM item acc = .ok select →
      ReadAs read (items.foldl (Row.mergeItem all) row) select := by
    clear h
    induction items with
    | nil =>
      intro row acc hacc h
      rw [List.foldlM_nil, pure_eq_ok] at h
      exact h ▸ hacc
    | cons v rest ih =>
      intro row acc hacc h
      rw [List.foldlM_cons, bind_eq_ok] at h
      obtain ⟨next, hnext, hrest⟩ := h
      exact ih _ next (hitem.readAs_mergeItem hacc hnext) hrest
  have hread := hfold [] [] .nil h
  exact hread.foldlM_nil_eq (hread.sorted_iff.mp (Row.sorted_merged items))

end ReadsItems

end Items

/-! ## 4. Selections of queries -/

namespace Dialect

variable {d : Dialect} {t : ResourceType} {depth : Nat}

/-- A name that is read under a key is read as it is selected. -/
theorem readSelection_string (key source : String) :
    d.readSelection t depth key (.string source) = d.readSource t depth key source := by
  rw [readSelection, readEntry]
  cases d.readSource t depth key source <;> rfl

theorem readSelection_field {key source : String} (h : ∀ r, t.fieldKind source ≠ .relationship r) :
    d.readSelection t depth key (.string source) = .ok (.field source) := by
  rw [readSelection_string, readSource]
  split
  · next r hr => exact absurd hr (h r)
  · rfl

theorem withAllFields_eq_overlay (select : Select) :
    withAllFields t select = Keyed.overlay select
      ((t.idAttribute :: t.attributeNames).map fun name => (name, Selection.field name)) := by
  rw [withAllFields, Keyed.overlay, List.foldl_map]
  rfl

theorem readsItems_readSelectItem :
    ReadsItems (d.readSelection t depth) t.fieldRow (d.readSelectItem t depth) where
  star select := by
    have hfields : ReadAs (d.readSelection t depth) t.fieldRow
        ((t.idAttribute :: t.attributeNames).map fun name => (name, Selection.field name)) := by
      refine .ofNames fun name hname => readSelection_field ?_
      rcases List.mem_cons.mp hname with rfl | hname
      · exact t.fieldKind_idAttribute_ne
      · exact ResourceType.fieldKind_attribute_ne hname
    rw [hfields.foldlM_eq, ← withAllFields_eq_overlay]
    rfl
  name select name hname := by
    rw [readSelectItem, readName, if_neg hname, putEntry, readSelection_string]
  map select entries := d.readSelectEntries_eq_foldlM t depth entries select
  only select v select' h := by
    cases v with
    | string name => exact Or.inl ⟨name, rfl⟩
    | map entries => exact Or.inr ⟨entries, rfl⟩
    | _ => cases h

/-- **A list of items is read as the map that it merges to.** -/
theorem readSelect_merged {items : List Value} {select : Select}
    (h : d.readSelect t depth (.list items) = .ok select) :
    d.readSelect t depth (.map (Row.merged t.fieldRow items)) = .ok select := by
  rw [readSelect, readSelectItems_eq_foldlM] at h
  rw [readSelect, readSelectEntries_eq_foldlM]
  exact readsItems_readSelectItem.foldlM_merged h

end Dialect

/-! ## 5. Selections of group levels -/

namespace OperatorTable

variable {t : OperatorTable} {keys : List String}

theorem readAs_ofFields :
    ReadAs (fun _ v => t.readGroupSelection v) (Row.ofFields keys) (Select.ofFields keys) :=
  .ofFields fun _ _ => rfl

theorem readsItems_readGroupItem :
    ReadsItems (fun _ v => t.readGroupSelection v) (Row.ofFields keys) (t.readGroupItem keys) where
  star select := by
    rw [readAs_ofFields.foldlM_eq]
    rfl
  name select name hname := by
    unfold readGroupItem
    split
    · next heq => exact absurd (Value.string.inj heq) hname
    · next heq => rw [Value.string.inj heq]; rfl
    · next heq => cases heq
    · next h _ => exact absurd rfl (h name)
  map select entries := rfl
  only select v select' h := by
    cases v with
    | string name => exact Or.inl ⟨name, rfl⟩
    | map entries => exact Or.inr ⟨entries, rfl⟩
    | _ => cases h

/-- **A list of items is read as the map that it merges to.** -/
theorem readGroupSelect_merged {items : List Value} {select : Select}
    (h : t.readGroupSelect keys (some (.list items)) = .ok select) :
    t.readGroupSelect keys (some (.map (Row.merged (Row.ofFields keys) items))) = .ok select :=
  readsItems_readGroupItem.foldlM_merged h

/-- The map of the keys selects what is selected without a selection. -/
theorem readGroupSelect_ofFields :
    t.readGroupSelect keys (some (.map (Row.ofFields keys))) = .ok (Select.ofFields keys) :=
  readAs_ofFields.foldlM_nil_eq (Keyed.sorted_ofList _)

/-- Every entry is a key of the level under its own name. -/
abbrev SelectsKeys (keys : List String) : Select → Prop :=
  Select.Fits fun name s => name ∈ keys ∧ s = .field name

theorem SelectsKeys.eq_ofFields {select : Select} (h : SelectsKeys keys select)
    (hall : ∀ key ∈ keys, key ∈ Keyed.keys select) : select = Select.ofFields keys := by
  refine h.sorted.ext (Keyed.sorted_ofList _) fun key => ?_
  rw [Select.get?_ofFields]
  cases hget : Keyed.get? key select with
  | none => rw [if_neg fun hkey => Keyed.get?_eq_none_iff.mp hget (hall key hkey)]
  | some s =>
    obtain ⟨hkey, hs⟩ := h.all _ (Keyed.mem_of_get?_eq_some hget)
    exact hs ▸ (if_pos hkey).symm

/-- A key of the level is selected under its own name, also if that is `*`. -/
theorem readGroupItem_key {select : Select} {key : String} (hkey : key ∈ keys)
    (h : SelectsKeys keys select) :
    ∃ next, t.readGroupItem keys select (.string key) = .ok next ∧ SelectsKeys keys next ∧
      ∀ name, name = key ∨ name ∈ Keyed.keys select → name ∈ Keyed.keys next := by
  by_cases hstar : key = "*"
  · subst hstar
    have hfields : SelectsKeys keys (Select.ofFields keys) := .ofFields fun _ hname => ⟨hname, rfl⟩
    refine ⟨_, rfl, h.overlay hfields.all, ?_⟩
    rintro name (rfl | hname)
    · refine Keyed.mem_keys_overlay.mpr (Or.inr (Keyed.mem_keys_ofList.mpr ?_))
      exact List.mem_map.mpr ⟨_, List.mem_map_of_mem hkey, rfl⟩
    · exact Keyed.mem_keys_overlay.mpr (Or.inl hname)
  · refine ⟨_, readsItems_readGroupItem.name select key hstar, h.insert ⟨hkey, rfl⟩, ?_⟩
    exact fun name hname => Keyed.mem_keys_insert.mpr hname

/-- Keys of the level are selected one after the other.  What `*` brings in early is selected under
its own name again, so it does no harm. -/
theorem exists_foldlM_readGroupItem {names : List String} {select : Select}
    (hnames : ∀ name ∈ names, name ∈ keys) (h : SelectsKeys keys select) :
    ∃ next, (names.map Value.string).foldlM (t.readGroupItem keys) select = .ok next ∧
      SelectsKeys keys next ∧
      ∀ name, name ∈ names ∨ name ∈ Keyed.keys select → name ∈ Keyed.keys next := by
  induction names generalizing select with
  | nil => exact ⟨select, rfl, h, fun name hname => by simpa using hname⟩
  | cons key rest ih =>
    obtain ⟨hkey, hrest⟩ := List.forall_mem_cons.mp hnames
    obtain ⟨mid, hmid, hfits, hin⟩ := readGroupItem_key (t := t) hkey h
    obtain ⟨next, hnext, hfits', hin'⟩ := ih hrest hfits
    refine ⟨next, ?_, hfits', ?_⟩
    · rw [List.map_cons, List.foldlM_cons, hmid]
      exact hnext
    · intro name hname
      rw [List.mem_cons, or_assoc] at hname
      rcases hname with rfl | hname | hname
      · exact hin' name (Or.inr (hin name (Or.inl rfl)))
      · exact hin' name (Or.inl hname)
      · exact hin' name (Or.inr (hin name (Or.inr hname)))

/-- The list of the keys selects the same. -/
theorem readGroupSelect_names :
    t.readGroupSelect keys (some (.list (keys.map .string))) = .ok (Select.ofFields keys) := by
  have hall : ∀ name ∈ keys, name ∈ keys := fun _ hname => hname
  obtain ⟨next, hnext, hfits, hin⟩ := exists_foldlM_readGroupItem (t := t) hall .nil
  rw [readGroupSelect, hnext, SelectsKeys.eq_ofFields hfits fun key hkey => hin key (Or.inl hkey)]

end OperatorTable

end GraphQuery
