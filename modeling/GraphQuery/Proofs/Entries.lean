/-
# The theory of entries

What is under a key, which entries an operation can bring in, and when entries that are set one
after the other give back the list they came from.

* A map that is rebuilt entry by entry is the same map (`ofList_of_sorted`).
* Of entries with distinct keys none is lost: the map made of them is a rearrangement of them
  (`ofList_perm`).
* Of a row of optional entries with distinct keys, the value under a key is the one written there
  (`get?_ofOptions`).
* What stands in a list or under a key is smaller than the whole, so a proof about values may go by
  their size, or from the items and the values of the entries to the whole (`partsInduction`).
-/
import GraphQuery.Query.Document
import Mathlib.Data.List.Nodup

namespace GraphQuery

open scoped List

/-- A function of lists that goes from item to item is a map. -/
theorem eq_map_of_cons {α β : Type} {f : α → β} {g : List α → List β} (hnil : g [] = [])
    (hcons : ∀ x rest, g (x :: rest) = f x :: g rest) (xs : List α) : g xs = xs.map f := by
  induction xs with
  | nil => exact hnil
  | cons x rest ih => rw [hcons, ih, List.map_cons]

theorem map_eq_self_iff {α : Type} {f : α → α} {xs : List α} :
    xs.map f = xs ↔ ∀ x ∈ xs, f x = x := by
  induction xs with
  | nil => simp
  | cons x rest ih => rw [List.map_cons, List.cons.injEq, ih, List.forall_mem_cons]

namespace Keyed

variable {α : Type}

/-! ## 1. Reading -/

theorem mem_keys_of_mem {e : String × α} {entries : List (String × α)} (h : e ∈ entries) :
    e.1 ∈ keys entries :=
  List.mem_map_of_mem h

theorem mem_of_get?_eq_some {key : String} {value : α} {entries : List (String × α)}
    (h : get? key entries = some value) : (key, value) ∈ entries := by
  induction entries with
  | nil => simp at h
  | cons e rest ih =>
    obtain ⟨k, v⟩ := e
    rw [get?] at h
    split at h
    · next hk =>
      rw [hk, Option.some.inj h]
      exact List.mem_cons_self
    · exact List.mem_cons_of_mem _ (ih h)

theorem get?_eq_none_iff {key : String} {entries : List (String × α)} :
    get? key entries = none ↔ key ∉ keys entries := by
  induction entries with
  | nil => simp [keys]
  | cons e rest ih =>
    obtain ⟨k, v⟩ := e
    rw [get?, keys, List.map_cons, List.mem_cons, not_or]
    split
    · next hk => simp [hk]
    · next hk =>
      rw [ih]
      exact ⟨fun h => ⟨fun he => hk he.symm, h⟩, And.right⟩

theorem contains_iff {key : String} {entries : List (String × α)} :
    contains key entries = true ↔ key ∈ keys entries := by
  rw [contains, Option.isSome_iff_ne_none, Ne, get?_eq_none_iff, not_not]

/-- In two lists of entries the first list counts. -/
theorem get?_append (key : String) (entries others : List (String × α)) :
    get? key (entries ++ others) = (get? key entries).or (get? key others) := by
  induction entries with
  | nil => rfl
  | cons e rest ih =>
    obtain ⟨k, v⟩ := e
    rw [List.cons_append, get?, get?]
    split
    · rfl
    · exact ih

/-- What a table of names gives for a name. -/
theorem get?_map_names (key : String) (f : String → α) (names : List String) :
    get? key (names.map fun name => (name, f name)) = if key ∈ names then some (f key) else none := by
  induction names with
  | nil => rfl
  | cons name rest ih =>
    rw [List.map_cons, get?, ih]
    by_cases hname : name = key
    · rw [if_pos hname, if_pos (List.mem_cons.mpr (Or.inl hname.symm)), hname]
    · have hmem : key ∈ name :: rest ↔ key ∈ rest := by
        rw [List.mem_cons]
        exact ⟨fun h => h.resolve_left (Ne.symm hname), Or.inr⟩
      simp only [if_neg hname, hmem]

/-- A step that may look at the key replaces the value that is found. -/
theorem get?_map {β : Type} (key : String) (f : String → α → β) (entries : List (String × α)) :
    get? key (entries.map fun e => (e.1, f e.1 e.2)) = (get? key entries).map (f key) := by
  induction entries with
  | nil => rfl
  | cons e rest ih =>
    obtain ⟨k, v⟩ := e
    rw [List.map_cons, get?, get?]
    split
    · next hk => rw [hk]; rfl
    · exact ih

theorem get?_erase (key key' : String) (entries : List (String × α)) :
    get? key' (erase key entries) = if key = key' then none else get? key' entries := by
  induction entries with
  | nil => simp [erase]
  | cons e rest ih =>
    obtain ⟨k, v⟩ := e
    have hcons : erase key ((k, v) :: rest) =
        if k = key then erase key rest else (k, v) :: erase key rest := by
      by_cases hk : k = key <;> simp [erase, hk]
    rw [hcons]
    by_cases hk : k = key
    · rw [if_pos hk, ih, get?, hk]
      by_cases hkey : key = key'
      · rw [if_pos hkey, if_pos hkey]
      · rw [if_neg hkey, if_neg hkey, if_neg hkey]
    · rw [if_neg hk, get?, get?, ih]
      by_cases hk' : k = key'
      · rw [if_pos hk', if_pos hk', if_neg fun h => hk (hk'.trans h.symm)]
      · rw [if_neg hk', if_neg hk']

theorem mem_keys_of_mem_keys_erase {key k : String} {entries : List (String × α)}
    (h : k ∈ keys (erase key entries)) : k ∈ keys entries :=
  (List.filter_sublist.map Prod.fst).subset h

theorem keys_map {β : Type} (f : String → α → β) (entries : List (String × α)) :
    keys (entries.map fun e => (e.1, f e.1 e.2)) = keys entries := by
  rw [keys, List.map_map]
  rfl

theorem get?_mapValues {β : Type} (key : String) (f : α → β) (entries : List (String × α)) :
    get? key (mapValues f entries) = (get? key entries).map f :=
  get?_map key (fun _ => f) entries

theorem keys_mapValues {β : Type} (f : α → β) (entries : List (String × α)) :
    keys (mapValues f entries) = keys entries :=
  keys_map (fun _ => f) entries

theorem sorted_mapValues_iff {β : Type} {f : α → β} {entries : List (String × α)} :
    Sorted (mapValues f entries) ↔ Sorted entries := by
  rw [Sorted, keys_mapValues, Sorted]

theorem mapValues_mapValues {β γ : Type} (f : α → β) (g : β → γ) (entries : List (String × α)) :
    mapValues g (mapValues f entries) = mapValues (fun a => g (f a)) entries := by
  rw [mapValues, mapValues, List.map_map]
  rfl

theorem mapValues_congr {β : Type} {f g : α → β} {entries : List (String × α)}
    (h : ∀ e ∈ entries, f e.2 = g e.2) : mapValues f entries = mapValues g entries :=
  List.map_congr_left fun e he => Prod.ext rfl (h e he)

theorem mapValues_eq_self_iff {f : α → α} {entries : List (String × α)} :
    mapValues f entries = entries ↔ ∀ e ∈ entries, f e.2 = e.2 := by
  rw [mapValues, map_eq_self_iff]
  exact forall₂_congr fun e _ => ⟨congrArg Prod.snd, fun h => Prod.ext rfl h⟩

/-- Where one value is replaced, what is found under a key stays or is what was replaced. -/
theorem get?_replaced (k key : String) (v w : α) (before after : List (String × α)) :
    get? k (before ++ (key, v) :: after) = get? k (before ++ (key, w) :: after) ∨
      key = k ∧ get? k (before ++ (key, v) :: after) = some v ∧
        get? k (before ++ (key, w) :: after) = some w := by
  rw [get?_append, get?_append, get?, get?]
  cases get? k before with
  | some u => exact Or.inl rfl
  | none =>
    rw [Option.none_or, Option.none_or]
    split
    · next hk => exact Or.inr ⟨hk, rfl, rfl⟩
    · exact Or.inl rfl

theorem keys_replaced {key : String} (v w : α) (before after : List (String × α)) :
    keys (before ++ (key, v) :: after) = keys (before ++ (key, w) :: after) := by
  rw [keys, keys, List.map_append, List.map_append, List.map_cons, List.map_cons]

/-- The keys of a map are distinct. -/
theorem Sorted.nodup {entries : List (String × α)} (h : Sorted entries) : (keys entries).Nodup :=
  h.imp String.ne_of_lt

/-! ## 2. Building -/

/-- An insertion brings in no entry but its own. -/
theorem mem_insert {key : String} {value : α} {entries : List (String × α)} {e : String × α}
    (h : e ∈ insert key value entries) : e = (key, value) ∨ e ∈ entries := by
  induction entries with
  | nil => exact Or.inl (List.mem_singleton.mp h)
  | cons e' rest ih =>
    obtain ⟨k, v⟩ := e'
    unfold insert at h
    split at h
    · exact List.mem_cons.mp h
    · split at h
      · rcases List.mem_cons.mp h with h | h
        · exact Or.inl h
        · exact Or.inr (List.mem_cons_of_mem _ h)
      · rcases List.mem_cons.mp h with rfl | h
        · exact Or.inr List.mem_cons_self
        · exact (ih h).imp_right (List.mem_cons_of_mem _)

theorem get?_insert_self (key : String) (value : α) (entries : List (String × α)) :
    get? key (insert key value entries) = some value := by
  rw [get?_insert, if_pos rfl]

theorem get?_insert_of_ne {key key' : String} (h : key ≠ key') (value : α)
    (entries : List (String × α)) : get? key' (insert key value entries) = get? key' entries := by
  rw [get?_insert, if_neg h]

theorem mapValues_insert {β : Type} (f : α → β) (key : String) (value : α)
    (entries : List (String × α)) :
    mapValues f (insert key value entries) = insert key (f value) (mapValues f entries) := by
  induction entries with
  | nil => rfl
  | cons e rest ih =>
    obtain ⟨k, v⟩ := e
    rw [mapValues] at ih
    rw [insert, mapValues, mapValues, List.map_cons, insert]
    split_ifs
    · rfl
    · rfl
    · rw [List.map_cons, ih]
      rfl

/-- An entry behind all others is set at the end. -/
theorem insert_of_forall_lt {key : String} {value : α} {entries : List (String × α)}
    (h : ∀ k ∈ keys entries, k < key) : insert key value entries = entries ++ [(key, value)] := by
  induction entries with
  | nil => rfl
  | cons e rest ih =>
    obtain ⟨k, v⟩ := e
    have hk : k < key := h k List.mem_cons_self
    have hne : key ≠ k := by
      rintro rfl
      exact String.lt_irrefl key hk
    rw [insert, if_neg (String.lt_asymm hk), if_neg hne,
      ih fun k' hk' => h k' (List.mem_cons_of_mem _ hk')]
    rfl

/-- An entry is set only if there is none with its key. -/
theorem get?_insertNew (key key' : String) (value : α) (entries : List (String × α)) :
    get? key' (insertNew key value entries) =
      (get? key' entries).or (if key = key' then some value else none) := by
  unfold insertNew
  split
  · next hkey =>
    obtain ⟨v, hv⟩ := Option.isSome_iff_exists.mp hkey
    split
    · next heq => rw [← heq, hv, Option.some_or]
    · rw [Option.or_none]
  · next hkey =>
    rw [get?_insert]
    split
    · next heq => rw [← heq, Option.not_isSome_iff_eq_none.mp hkey, Option.none_or]
    · rw [Option.or_none]

/-- Of two entries set for a key the second counts. -/
theorem insert_insert (key : String) (value value' : α) (entries : List (String × α)) :
    insert key value (insert key value' entries) = insert key value entries := by
  induction entries with
  | nil => simp [insert, String.lt_irrefl]
  | cons e rest ih =>
    obtain ⟨k, v⟩ := e
    rw [insert, insert]
    split_ifs with hlt heq
    · rw [insert, if_neg (String.lt_irrefl key), if_pos rfl]
    · rw [insert, if_neg (String.lt_irrefl key), if_pos rfl]
    · rw [insert, if_neg hlt, if_neg heq, ih]

theorem insert_insertNew (key : String) (value value' : α) (entries : List (String × α)) :
    insert key value (insertNew key value' entries) = insert key value entries := by
  unfold insertNew
  split
  · rfl
  · exact insert_insert key value value' entries

theorem overlay_cons (entries : List (String × α)) (e : String × α) (added : List (String × α)) :
    overlay entries (e :: added) = overlay (insert e.1 e.2 entries) added := rfl

/-- Of the added entries the last one with a key counts, and without one what was there. -/
theorem get?_overlay (key : String) (entries added : List (String × α)) :
    get? key (overlay entries added) = (get? key added.reverse).or (get? key entries) := by
  induction added generalizing entries with
  | nil => rfl
  | cons e rest ih =>
    rw [overlay_cons, ih, get?_insert, List.reverse_cons, get?_append, Option.or_assoc]
    congr 1
    rw [get?]
    split <;> rfl

theorem mem_keys_overlay {key : String} {entries added : List (String × α)} :
    key ∈ keys (overlay entries added) ↔ key ∈ keys entries ∨ key ∈ keys added := by
  induction added generalizing entries with
  | nil => exact ⟨Or.inl, fun h => h.resolve_right List.not_mem_nil⟩
  | cons e rest ih =>
    rw [overlay_cons, ih, mem_keys_insert, keys, keys, keys, List.map_cons, List.mem_cons,
      or_comm (a := key = e.1), or_assoc]

theorem mem_keys_ofList {key : String} {entries : List (String × α)} :
    key ∈ keys (ofList entries) ↔ key ∈ keys entries := by
  rw [ofList, mem_keys_overlay]
  exact or_iff_right List.not_mem_nil

/-- Entries in key order that come behind all others are put at the end. -/
theorem overlay_of_sorted {entries added : List (String × α)} (h : Sorted (entries ++ added)) :
    overlay entries added = entries ++ added := by
  induction added generalizing entries with
  | nil => simp [overlay]
  | cons e rest ih =>
    have hlt : ∀ k ∈ keys entries, k < e.1 := by
      intro k hk
      rw [Sorted, keys, List.map_append, List.pairwise_append] at h
      exact h.2.2 k hk e.1 List.mem_cons_self
    rw [overlay_cons, insert_of_forall_lt hlt, ih (by simpa using h), List.append_assoc]
    rfl

/-- **A map that is rebuilt entry by entry is the same map.** -/
theorem ofList_of_sorted {entries : List (String × α)} (h : Sorted entries) :
    ofList entries = entries :=
  @overlay_of_sorted _ [] _ h

/-- An overlay brings in no entry but the added ones. -/
theorem mem_overlay {entries added : List (String × α)} {e : String × α}
    (h : e ∈ overlay entries added) : e ∈ entries ∨ e ∈ added := by
  induction added generalizing entries with
  | nil => exact Or.inl h
  | cons a rest ih =>
    rcases ih h with h | h
    · rcases mem_insert h with rfl | h
      · exact Or.inr List.mem_cons_self
      · exact Or.inl h
    · exact Or.inr (List.mem_cons_of_mem _ h)

/-! ## 3. Entries with distinct keys -/

/-- Of entries with distinct keys, each can be found under its own. -/
theorem get?_of_mem {entries : List (String × α)} (h : (keys entries).Nodup) {e : String × α}
    (he : e ∈ entries) : get? e.1 entries = some e.2 := by
  induction entries with
  | nil => simp at he
  | cons a rest ih =>
    obtain ⟨k, v⟩ := a
    rw [keys, List.map_cons, List.nodup_cons] at h
    rcases List.mem_cons.mp he with rfl | he
    · exact if_pos rfl
    · have hmem : e.1 ∈ keys rest := mem_keys_of_mem he
      have hk : k ≠ e.1 := fun hk => h.1 (by rw [hk]; exact hmem)
      rw [get?, if_neg hk, ih h.2 he]

theorem Sorted.mem_iff {entries : List (String × α)} (h : Sorted entries) {e : String × α} :
    e ∈ entries ↔ get? e.1 entries = some e.2 :=
  ⟨get?_of_mem h.nodup, fun hget => mem_of_get?_eq_some hget⟩

/-- **Two maps are the same if the same is found in them.** -/
theorem Sorted.ext {entries others : List (String × α)} (h : Sorted entries)
    (h' : Sorted others) (hget : ∀ key, get? key entries = get? key others) :
    entries = others := by
  have hperm : entries ~ others := by
    refine (List.perm_ext_iff_of_nodup h.nodup.of_map h'.nodup.of_map).mpr fun e => ?_
    rw [h.mem_iff, h'.mem_iff, hget]
  refine hperm.eq_of_pairwise ?_ (List.pairwise_map.mp h) (List.pairwise_map.mp h')
  intro a b _ _ hab hba
  exact absurd hba (String.lt_asymm hab)

/-- Under a new key an entry is added and all others stay. -/
theorem insert_perm {key : String} {value : α} {entries : List (String × α)}
    (h : key ∉ keys entries) : (insert key value entries).Perm ((key, value) :: entries) := by
  induction entries with
  | nil => exact List.Perm.refl _
  | cons e rest ih =>
    obtain ⟨k, v⟩ := e
    rw [keys, List.map_cons, List.mem_cons, not_or] at h
    unfold insert
    split
    · exact List.Perm.refl _
    · rw [if_neg h.1]
      exact ((ih h.2).cons (k, v)).trans (List.Perm.swap _ _ _)

theorem overlay_perm {entries added : List (String × α)}
    (h : (keys entries ++ keys added).Nodup) : (overlay entries added).Perm (entries ++ added) := by
  induction added generalizing entries with
  | nil => simp [overlay]
  | cons e rest ih =>
    have hmid : (keys entries ++ e.1 :: keys rest).Perm (e.1 :: (keys entries ++ keys rest)) :=
      List.perm_middle
    have hnew : e.1 ∉ keys entries := fun hm =>
      (List.nodup_cons.mp (hmid.nodup_iff.mp h)).1 (List.mem_append_left _ hm)
    have hins : (insert e.1 e.2 entries).Perm (e :: entries) := insert_perm hnew
    have hkeys : (keys (insert e.1 e.2 entries) ++ keys rest).Perm
        (e.1 :: (keys entries ++ keys rest)) := (hins.map Prod.fst).append_right _
    rw [overlay_cons]
    calc
      overlay (insert e.1 e.2 entries) rest
          ~ insert e.1 e.2 entries ++ rest := ih (hkeys.nodup_iff.mpr (hmid.nodup_iff.mp h))
      _ ~ e :: entries ++ rest := hins.append_right rest
      _ ~ entries ++ e :: rest := List.perm_middle.symm

/-- **Of entries with distinct keys the map loses none.** -/
theorem ofList_perm {entries : List (String × α)} (h : (keys entries).Nodup) :
    (ofList entries).Perm entries :=
  @overlay_perm _ [] _ h

theorem get?_ofList {entries : List (String × α)} (h : (keys entries).Nodup) {e : String × α}
    (he : e ∈ entries) : get? e.1 (ofList entries) = some e.2 :=
  get?_of_mem (((ofList_perm h).map Prod.fst).nodup_iff.mpr h) ((ofList_perm h).mem_iff.mpr he)

end Keyed

/-! ## 4. Optional entries -/

/-- The value under a key of a row of optional entries is the one written there. -/
theorem Row.get?_ofOptions {entries : List (String × Option Value)}
    (h : (Keyed.keys entries).Nodup) (key : String) :
    Keyed.get? key (Row.ofOptions entries) = (Keyed.get? key entries).join := by
  induction entries with
  | nil => rfl
  | cons e rest ih =>
    obtain ⟨k, v?⟩ := e
    rw [Keyed.keys, List.map_cons, List.nodup_cons] at h
    have ih := ih h.2
    rw [Keyed.get?]
    cases v? with
    | some v =>
      rw [show Row.ofOptions ((k, some v) :: rest) = (k, v) :: Row.ofOptions rest from rfl,
        Keyed.get?]
      split
      · rfl
      · exact ih
    | none =>
      rw [show Row.ofOptions ((k, none) :: rest) = Row.ofOptions rest from rfl, ih]
      split
      · next hk => rw [← hk, Keyed.get?_eq_none_iff.mpr h.1]; rfl
      · rfl

theorem Row.keys_ofOptions_sublist (entries : List (String × Option Value)) :
    (Keyed.keys (Row.ofOptions entries)).Sublist (Keyed.keys entries) := by
  induction entries with
  | nil => exact List.Sublist.slnil
  | cons e rest ih =>
    obtain ⟨k, v?⟩ := e
    cases v? with
    | some v => exact ih.cons_cons k
    | none => exact ih.cons k

/-! ## 5. Fields under their own names -/

theorem Select.get?_ofFields (names : List String) (key : String) :
    Keyed.get? key (Select.ofFields names) = if key ∈ names then some (.field key) else none := by
  rw [Select.ofFields, Keyed.ofList, Keyed.get?_overlay, Keyed.get?_nil, Option.or_none,
    ← List.map_reverse, Keyed.get?_map_names]
  simp only [List.mem_reverse]

/-! ## 6. Parts of a value are smaller -/

namespace Value

theorem sizeOf_lt_of_mem_items {v : Value} {items : List Value} (h : v ∈ items) :
    sizeOf v < sizeOf (Value.list items) := by
  have := List.sizeOf_lt_of_mem h
  simp only [list.sizeOf_spec]
  omega

theorem sizeOf_lt_of_mem_entries {e : String × Value} {entries : List (String × Value)}
    (h : e ∈ entries) : sizeOf e.2 < sizeOf (Value.map entries) := by
  have hmem := List.sizeOf_lt_of_mem h
  have hsnd : sizeOf e.2 < sizeOf e := by
    obtain ⟨k, v⟩ := e
    simp only [Prod.mk.sizeOf_spec]
    omega
  simp only [map.sizeOf_spec]
  omega

/-- What holds of a value if it holds of the items of a list and of the values of a map, holds of
every value. -/
@[elab_as_elim]
theorem partsInduction {motive : Value → Prop} (null : motive .null) (bool : ∀ b, motive (.bool b))
    (int : ∀ i, motive (.int i)) (float : ∀ x, motive (.float x)) (string : ∀ s, motive (.string s))
    (list : ∀ items, (∀ v ∈ items, motive v) → motive (.list items))
    (map : ∀ entries, (∀ e ∈ entries, motive e.2) → motive (.map entries)) (v : Value) :
    motive v := by
  induction hn : sizeOf v using Nat.strongRecOn generalizing v with
  | _ n ih =>
    subst hn
    cases v with
    | null => exact null
    | bool b => exact bool b
    | int i => exact int i
    | float x => exact float x
    | string s => exact string s
    | list items => exact list items fun v hv => ih _ (sizeOf_lt_of_mem_items hv) v rfl
    | map entries => exact map entries fun e he => ih _ (sizeOf_lt_of_mem_entries he) e.2 rfl

theorem sizeOf_lt_of_get? {key : String} {v : Value} {entries : List (String × Value)}
    (h : Keyed.get? key entries = some v) : sizeOf v < sizeOf (Value.map entries) :=
  sizeOf_lt_of_mem_entries (Keyed.mem_of_get?_eq_some h)

end Value

end GraphQuery
