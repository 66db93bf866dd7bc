/-
# Entries in key order

Objects, attribute sets and result rows are finite maps from strings.  They are kept as lists of
entries with strictly increasing keys, in the order of code points, so two maps are equal exactly
if their lists are, and the order of the entries is the order in which they are read and written.

The operations here work on any list of entries; `Sorted` says which lists are maps, and every
operation that builds one keeps it.
-/

namespace GraphQuery.Keyed

variable {α β : Type}

/-! ## 1. Reading -/

/-- The value under a key: that of the first entry with it. -/
def get? (key : String) : List (String × α) → Option α
  | [] => none
  | (k, v) :: rest => if k = key then some v else get? key rest

/-- Some entry has the key. -/
def contains (key : String) (entries : List (String × α)) : Bool := (get? key entries).isSome

/-- The keys, in order. -/
def keys (entries : List (String × α)) : List String := entries.map Prod.fst

/-- The values, in the order of their keys. -/
def values (entries : List (String × α)) : List α := entries.map Prod.snd

/-- The keys increase strictly. -/
def Sorted (entries : List (String × α)) : Prop := (keys entries).Pairwise (· < ·)

/-! ## 2. Building -/

/-- The entry for a key is set, in place if there is one. -/
def insert (key : String) (value : α) : List (String × α) → List (String × α)
  | [] => [(key, value)]
  | (k, v) :: rest =>
    if key < k then (key, value) :: (k, v) :: rest
    else if key = k then (key, value) :: rest
    else (k, v) :: insert key value rest

/-- The entry for a key is set unless there is one. -/
def insertNew (key : String) (value : α) (entries : List (String × α)) : List (String × α) :=
  if contains key entries then entries else insert key value entries

/-- The entries of `added` are set one after the other. -/
def overlay (entries added : List (String × α)) : List (String × α) :=
  added.foldl (fun acc e => insert e.1 e.2 acc) entries

/-- The map with the given entries; of several with one key the last one counts. -/
def ofList (entries : List (String × α)) : List (String × α) := overlay [] entries

/-- The entry for a key is taken away. -/
def erase (key : String) (entries : List (String × α)) : List (String × α) :=
  entries.filter (fun e => e.1 ≠ key)

/-- Every value is replaced, the keys stay. -/
def mapValues (f : α → β) (entries : List (String × α)) : List (String × β) :=
  entries.map (fun e => (e.1, f e.2))

/-! ## 3. What the operations do to the view -/

@[simp] theorem get?_nil (key : String) : get? key ([] : List (String × α)) = none := rfl

/-- Insertion sets one key and leaves the others alone. -/
theorem get?_insert (key key' : String) (value : α) (entries : List (String × α)) :
    get? key' (insert key value entries) =
      if key = key' then some value else get? key' entries := by
  induction entries with
  | nil => simp [insert, get?]
  | cons e rest ih =>
    obtain ⟨k, v⟩ := e
    unfold insert
    split
    · simp [get?]
    · split
      · next h =>
        subst h
        by_cases hk : key = key' <;> simp [get?, hk]
      · next h =>
        simp only [get?, ih]
        by_cases hk : k = key'
        · subst hk; simp [h]
        · simp [hk]

/-- The keys after an insertion are the new one and those before. -/
theorem mem_keys_insert {key k : String} {value : α} {entries : List (String × α)} :
    k ∈ keys (insert key value entries) ↔ k = key ∨ k ∈ keys entries := by
  induction entries with
  | nil => simp [insert, keys]
  | cons e rest ih =>
    obtain ⟨k', v⟩ := e
    unfold insert
    split
    · simp [keys]
    · split
      · next h => subst h; simp [keys]
      · simp only [keys, List.map_cons, List.mem_cons] at ih ⊢
        rw [ih]
        constructor
        · rintro (h | h | h) <;> simp [h]
        · rintro (h | h | h) <;> simp [h]

/-- Insertion keeps the order. -/
theorem Sorted.insert {key : String} {value : α} {entries : List (String × α)}
    (h : Sorted entries) : Sorted (Keyed.insert key value entries) := by
  induction entries with
  | nil => simp [Keyed.insert, Sorted, keys]
  | cons e rest ih =>
    obtain ⟨k, v⟩ := e
    have hk : ∀ k' ∈ keys rest, k < k' := by
      have := h
      simp only [Sorted, keys, List.map_cons, List.pairwise_cons] at this
      exact this.1
    have hrest : Sorted rest := by
      have := h
      simp only [Sorted, keys, List.map_cons, List.pairwise_cons] at this
      exact this.2
    unfold Keyed.insert
    split
    · next hlt =>
      refine List.pairwise_cons.2 ⟨?_, h⟩
      intro k' hk'
      rcases List.mem_cons.1 hk' with rfl | hk'
      · exact hlt
      · exact String.lt_trans hlt (hk k' hk')
    · next hlt =>
      split
      · next heq => subst heq; exact List.pairwise_cons.2 ⟨hk, hrest⟩
      · next hne =>
        refine List.pairwise_cons.2 ⟨?_, ih hrest⟩
        intro k' hk'
        rcases mem_keys_insert.1 hk' with rfl | hk'
        · exact Decidable.byContradiction fun hgt =>
            hne (String.le_antisymm (String.not_lt.1 hgt) (String.not_lt.1 hlt))
        · exact hk k' hk'

/-- Overlaying keeps the order. -/
theorem Sorted.overlay {entries : List (String × α)} (h : Sorted entries)
    (added : List (String × α)) : Sorted (Keyed.overlay entries added) := by
  unfold Keyed.overlay
  induction added generalizing entries with
  | nil => exact h
  | cons e rest ih => exact ih h.insert

/-- A list of entries becomes a map. -/
theorem sorted_ofList (entries : List (String × α)) : Sorted (ofList entries) :=
  Sorted.overlay (show Sorted [] from List.Pairwise.nil) entries

end GraphQuery.Keyed
