/-
# Walking with cursors

The cursor of a row is the anchor with all of its key values.  A walk asks for a page, takes the
cursor of its last (or first) row, and asks for the page behind (or in front of) it, until a page is
empty.  Meanwhile the items may come in another order for every page.

If no two items tie, the cursor of an item stands exactly for its place in the ordered list
(`Placed.arrange_after`, `Placed.arrange_before`).  So a walk sees the blocks of that list, one after
the other, and then an empty page: **`walk_pages`**, forwards from the start and backwards from
every page.

A walk is followed through the relation `Trail`, which holds the pages and slices of a whole walk
without the snapshots; `walk_of_trail` is the induction over the calls.
-/
import GraphQuery.Proofs.Entries
import GraphQuery.Proofs.Ordering.Anchors

namespace GraphQuery

variable {α : Type} {key : α → String → Value} {order : List OrderKey} {items : List α}

/-! ## 1. The cursor of an item -/

/-- The values of an item under the sort keys. -/
def keyEntries (key : α → String → Value) (order : List OrderKey) (x : α) : Row :=
  order.map fun k => (k.field, key x k.field)

/-- The anchor that names the place of an item: its values under all sort keys. -/
def cursorOf (key : α → String → Value) (order : List OrderKey) (x : α) : Anchor :=
  Keyed.ofList (keyEntries key order x)

theorem keys_keyEntries (x : α) :
    Keyed.keys (keyEntries key order x) = order.map OrderKey.field := by
  rw [Keyed.keys, keyEntries, List.map_map]
  rfl

theorem cursorOf_perm (hfields : (order.map OrderKey.field).Nodup) (x : α) :
    (cursorOf key order x).Perm (keyEntries key order x) :=
  Keyed.ofList_perm (by rwa [keys_keyEntries])

theorem length_cursorOf (hfields : (order.map OrderKey.field).Nodup) (x : α) :
    (cursorOf key order x).length = order.length :=
  (cursorOf_perm hfields x).length_eq.trans (List.length_map _)

theorem leadingFields_cursorOf (hfields : (order.map OrderKey.field).Nodup) (x : α) :
    leadingFields order (cursorOf key order x) = order.map OrderKey.field := by
  rw [leadingFields, length_cursorOf hfields, List.take_length]

/-- The tuple of a cursor is that of the item. -/
theorem anchorTuple_cursorOf (hfields : (order.map OrderKey.field).Nodup) (x : α) :
    anchorTuple order (cursorOf key order x) = tupleOf key order x := by
  rw [anchorTuple, leadingFields_cursorOf hfields, List.map_map, tupleOf]
  refine List.map_congr_left fun k hk => ?_
  have hget : Keyed.get? k.field (cursorOf key order x) = some (key x k.field) :=
    @Keyed.get?_ofList _ (keyEntries key order x) (by rwa [keys_keyEntries]) (_, _)
      (List.mem_map.mpr ⟨k, hk, rfl⟩)
  rw [Function.comp_apply, hget, Option.getD_some]

theorem checkAnchor_cursorOf (horder : order ≠ []) (hfields : (order.map OrderKey.field).Nodup)
    (x : α) : checkAnchor order (cursorOf key order x) = .ok () := by
  rw [checkAnchor_eq_ok_iff, length_cursorOf hfields, leadingFields_cursorOf hfields]
  refine ⟨List.length_pos_iff.mpr horder, Nat.le_refl _, fun name hname => ?_⟩
  rw [← @keys_keyEntries _ key order x]
  exact ((cursorOf_perm hfields x).map Prod.fst).mem_iff.mp hname

/-! ## 2. Items that do not tie -/

/-- Under the order every item has a place of its own. -/
structure Placed (key : α → String → Value) (order : List OrderKey) (items : List α) : Prop where
  order_ne_nil : order ≠ []
  fields : (order.map OrderKey.field).Nodup
  preordered : Preordered key order items []
  untied : items.Pairwise fun x y => ¬Tied order (tupleOf key order x) (tupleOf key order y)

namespace Placed

theorem of_perm (h : Placed key order items) {others : List α} (hperm : others.Perm items) :
    Placed key order others where
  order_ne_nil := h.order_ne_nil
  fields := h.fields
  preordered k hk a b c ha hb hc := by
    have hmem : ∀ {v}, OccursUnder key order others [] k.field v →
        OccursUnder key order items [] k.field v :=
      fun hv => hv.imp_left fun ⟨x, hx, hkey⟩ => ⟨x, hperm.mem_iff.mp hx, hkey⟩
    exact h.preordered k hk a b c (hmem ha) (hmem hb) (hmem hc)
  untied := untied_of_perm hperm h.untied

/-- The ordered items increase strictly. -/
theorem sortItems_pairwise_lt (h : Placed key order items) :
    (sortItems key order items).Pairwise fun x y => compareItems key order x y = .lt :=
  GraphQuery.sortItems_pairwise_lt h.preordered h.untied

/-- The ordered list does not depend on the order in which the items come. -/
theorem sortItems_eq (h : Placed key order items) {others : List α} (hperm : others.Perm items) :
    sortItems key order others = sortItems key order items :=
  eq_sortItems h.preordered h.untied ((sortItems_perm key order others).trans hperm)
    (h.of_perm hperm).sortItems_pairwise_lt

theorem isSettled (h : Placed key order items) {others : List α} (hperm : others.Perm items) :
    isSettled key order others = true :=
  (h.of_perm hperm).preordered.isSettled

/-- What lies behind an item of the ordered list, and what lies in front of it. -/
theorem filter_compareItems (h : Placed key order items) {pre post : List α} {x : α}
    (hsplit : sortItems key order items = pre ++ x :: post) :
    (sortItems key order items).filter (fun y => compareItems key order y x == .gt) = post ∧
      (sortItems key order items).filter (fun y => compareItems key order y x == .lt) = pre := by
  have hlt := h.sortItems_pairwise_lt
  have hself : compareItems key order x x = .eq := by
    refine h.preordered.preorderOn.refl ((sortItems_perm key order items).mem_iff.mp ?_)
    simp [hsplit]
  rw [hsplit] at hlt ⊢
  obtain ⟨-, hpost, hpre⟩ := List.pairwise_append.mp hlt
  have hfront : ∀ y ∈ pre, compareItems key order y x = .lt := fun y hy =>
    hpre y hy x List.mem_cons_self
  have hback : ∀ y ∈ post, compareItems key order y x = .gt := fun y hy => by
    have hxy := (List.pairwise_cons.mp hpost).1 y hy
    rw [compareItems, compareTuples_swap, ← compareItems, hxy]
    rfl
  constructor
  · have hnone : pre.filter (fun y => compareItems key order y x == .gt) = [] :=
      List.filter_eq_nil_iff.mpr fun y hy => by simp [hfront y hy]
    have hall : post.filter (fun y => compareItems key order y x == .gt) = post :=
      List.filter_eq_self.mpr fun y hy => by simp [hback y hy]
    rw [List.filter_append, List.filter_cons, hself, hnone, hall]
    rfl
  · have hnone : post.filter (fun y => compareItems key order y x == .lt) = [] :=
      List.filter_eq_nil_iff.mpr fun y hy => by simp [hback y hy]
    have hall : pre.filter (fun y => compareItems key order y x == .lt) = pre :=
      List.filter_eq_self.mpr fun y hy => by simp [hfront y hy]
    rw [List.filter_append, List.filter_cons, hself, hnone, hall]
    exact List.append_nil pre

end Placed

/-! ## 3. One page -/

/-- Whatever the order in which the items come, the slice gives the page. -/
def Shows (key : α → String → Value) (order : List OrderKey) (items : List α) (s : Slice)
    (page : List α) : Prop :=
  ∀ others : List α, others.Perm items → arrange key order s others = .ok page

namespace Placed

theorem arrange_first (h : Placed key order items) (n : UInt64) :
    Shows key order items { limit := some n } ((sortItems key order items).take n.toNat) := by
  intro others hperm
  rw [arrange_of_check rfl (h.isSettled hperm), h.sortItems_eq hperm]
  simp [Slice.admits, Slice.cut, Slice.bounds]

theorem check_of_cursor (h : Placed key order items) {s : Slice} {x : α}
    (hs : s.anchors = [cursorOf key order x]) : s.check order = .ok () := by
  rw [Slice.check_eq_ok_iff, hs, List.forall_mem_singleton]
  exact checkAnchor_cursorOf h.order_ne_nil h.fields x

/-- Behind the cursor of an item comes what is behind the item. -/
theorem arrange_after (h : Placed key order items) (n : UInt64) {pre post : List α} {x : α}
    (hsplit : sortItems key order items = pre ++ x :: post) :
    Shows key order items { limit := some n, after := some (cursorOf key order x) }
      (post.take n.toNat) := by
  intro others hperm
  have hrest := (h.filter_compareItems hsplit).1
  simp only [compareItems] at hrest
  rw [arrange_of_check (h.check_of_cursor rfl) (h.isSettled hperm), h.sortItems_eq hperm]
  simp only [Slice.admits, Option.all_some, Option.all_none, Bool.and_true,
    anchorTuple_cursorOf h.fields, hrest]
  simp [Slice.cut, Slice.bounds]

/-- In front of the cursor of an item comes the end of what is in front of the item. -/
theorem arrange_before (h : Placed key order items) (n : UInt64) {pre post : List α} {x : α}
    (hsplit : sortItems key order items = pre ++ x :: post) :
    Shows key order items { limit := some n, before := some (cursorOf key order x) }
      (pre.drop (pre.length - n.toNat)) := by
  intro others hperm
  have hrest := (h.filter_compareItems hsplit).2
  simp only [compareItems] at hrest
  rw [arrange_of_check (h.check_of_cursor rfl) (h.isSettled hperm), h.sortItems_eq hperm]
  simp only [Slice.admits, Option.all_some, Option.all_none, Bool.true_and,
    anchorTuple_cursorOf h.fields, hrest]
  have hcut : Slice.cut { limit := some n, before := some (cursorOf key order x) } pre =
      (pre.drop (pre.length - n.toNat)).take (pre.length - (pre.length - n.toNat)) := rfl
  rw [hcut, List.take_of_length_le (Nat.le_of_eq List.length_drop)]

end Placed

/-! ## 4. Walks -/

/-- The pages of a walk, each from a snapshot of the items: `next` says which slice is asked for
after a page, if any. -/
def walk (key : α → String → Value) (order : List OrderKey) (next : List α → Option Slice) :
    List (List α) → Slice → Except QueryError (List (List α))
  | [], _ => .ok []
  | items :: snapshots, s => do
    let page ← arrange key order s items
    match next page with
    | none => return [page]
    | some s' => do
      let pages ← walk key order next snapshots s'
      return page :: pages

/-- The slice behind the last row of a page; after an empty page, none. -/
def nextSlice (key : α → String → Value) (order : List OrderKey) (n : UInt64) (page : List α) :
    Option Slice :=
  page.getLast?.map fun x => { limit := some n, after := some (cursorOf key order x) }

/-- The slice in front of the first row of a page; after an empty page, none. -/
def previousSlice (key : α → String → Value) (order : List OrderKey) (n : UInt64)
    (page : List α) : Option Slice :=
  page.head?.map fun x => { limit := some n, before := some (cursorOf key order x) }

/-- All pages of a walk that starts with a slice, whatever the snapshots. -/
inductive Trail (key : α → String → Value) (order : List OrderKey) (items : List α)
    (next : List α → Option Slice) : Slice → List (List α) → Prop
  | last {s : Slice} {page : List α} (hpage : Shows key order items s page)
      (hnext : next page = none) : Trail key order items next s [page]
  | step {s s' : Slice} {page : List α} {pages : List (List α)}
      (hpage : Shows key order items s page) (hnext : next page = some s')
      (hrest : Trail key order items next s' pages) : Trail key order items next s (page :: pages)

/-- A walk goes along its trail as far as there are snapshots. -/
theorem walk_of_trail {next : List α → Option Slice} {s : Slice} {pages : List (List α)}
    (h : Trail key order items next s pages) {snapshots : List (List α)}
    (hsnapshots : ∀ others ∈ snapshots, others.Perm items) :
    walk key order next snapshots s = .ok (pages.take snapshots.length) := by
  induction h generalizing snapshots with
  | last hpage hnext =>
    cases snapshots with
    | nil => rfl
    | cons others rest =>
      rw [walk, hpage others (hsnapshots others List.mem_cons_self), ok_bind, hnext]
      simp [pure, Except.pure]
  | step hpage hnext _ ih =>
    cases snapshots with
    | nil => rfl
    | cons others rest =>
      have hothers := hsnapshots others List.mem_cons_self
      have hrest := ih fun other hother => hsnapshots other (List.mem_cons_of_mem _ hother)
      rw [walk, hpage others hothers, ok_bind, hnext]
      simp only [hrest, ok_bind]
      rfl

/-! ## 5. Blocks -/

/-- The block of a list with a number. -/
def block (n : Nat) (xs : List α) (k : Nat) : List α := (xs.drop (k * n)).take n

/-- The number of blocks of `n` items, the last of which may be shorter. -/
def blockCount (n : Nat) (xs : List α) : Nat := (xs.length + n - 1) / n

/-- A list cut into consecutive blocks of `n` items, the last of which may be shorter. -/
def blocks (n : Nat) (xs : List α) : List (List α) := (List.range (blockCount n xs)).map (block n xs)

section Blocks

variable {n : Nat} {xs : List α}

theorem lt_blockCount_iff (hn : 0 < n) (k : Nat) : k < blockCount n xs ↔ k * n < xs.length := by
  rw [blockCount, ← Nat.succ_le_iff, Nat.le_div_iff_mul_le hn, Nat.succ_mul]
  omega

/-- The first blocks are the first items. -/
theorem flatten_range_block (m : Nat) :
    ((List.range m).map (block n xs)).flatten = xs.take (m * n) := by
  induction m with
  | zero => simp
  | succ m ih => simp [List.range_succ, ih, block, Nat.succ_mul, List.take_add]

/-- **The blocks are the list.** -/
theorem flatten_blocks (hn : 0 < n) : (blocks n xs).flatten = xs := by
  rw [blocks, flatten_range_block, List.take_of_length_le]
  exact Nat.not_lt.mp fun h => Nat.lt_irrefl _ ((lt_blockCount_iff hn _).mpr h)

theorem block_eq_nil_iff (hn : 0 < n) {k : Nat} : block n xs k = [] ↔ blockCount n xs ≤ k := by
  rw [block, List.take_eq_nil_iff, List.drop_eq_nil_iff, ← Nat.not_lt, ← Nat.not_lt,
    lt_blockCount_iff hn]
  omega

/-- The list around the last item of a block. -/
theorem split_of_getLast? {k : Nat} {x : α} (h : (block n xs k).getLast? = some x) :
    ∃ pre, xs = pre ++ x :: xs.drop ((k + 1) * n) := by
  obtain ⟨init, hinit⟩ := List.getLast?_eq_some_iff.mp h
  refine ⟨xs.take (k * n) ++ init, ?_⟩
  calc
    xs = xs.take ((k + 1) * n) ++ xs.drop ((k + 1) * n) := (List.take_append_drop _ _).symm
    _ = xs.take (k * n) ++ block n xs k ++ xs.drop ((k + 1) * n) := by
      rw [Nat.succ_mul, List.take_add, block]
    _ = xs.take (k * n) ++ init ++ x :: xs.drop ((k + 1) * n) := by rw [hinit]; simp

/-- The list around the first item of a block. -/
theorem split_of_head? {k : Nat} {x : α} (h : (block n xs k).head? = some x) :
    ∃ post, xs = xs.take (k * n) ++ x :: post := by
  obtain ⟨tail, htail⟩ := List.head?_eq_some_iff.mp h
  refine ⟨tail ++ xs.drop ((k + 1) * n), ?_⟩
  calc
    xs = xs.take ((k + 1) * n) ++ xs.drop ((k + 1) * n) := (List.take_append_drop _ _).symm
    _ = xs.take (k * n) ++ block n xs k ++ xs.drop ((k + 1) * n) := by
      rw [Nat.succ_mul, List.take_add, block]
    _ = xs.take (k * n) ++ x :: (tail ++ xs.drop ((k + 1) * n)) := by rw [htail]; simp

end Blocks

/-! ## 6. Walks see the blocks -/

namespace Placed

/-- From the slice of a block on, a walk forwards sees this block and those behind it. -/
theorem trail_forwards (h : Placed key order items) {n : UInt64} (hn : 0 < n.toNat)
    {j k : Nat} (hk : k + j = blockCount n.toNat (sortItems key order items)) {s : Slice}
    (hs : Shows key order items s (block n.toNat (sortItems key order items) k)) :
    Trail key order items (nextSlice key order n) s
      ((List.range' k (j + 1)).map (block n.toNat (sortItems key order items))) := by
  induction j generalizing k s with
  | zero =>
    have hnil : block n.toNat (sortItems key order items) k = [] :=
      (block_eq_nil_iff hn).mpr (Nat.le_of_eq hk.symm)
    exact .last hs (by rw [nextSlice, hnil]; rfl)
  | succ j ih =>
    have hne : block n.toNat (sortItems key order items) k ≠ [] := fun hnil => by
      have := (block_eq_nil_iff hn).mp hnil
      omega
    have hlast := List.getLast?_eq_some_getLast hne
    obtain ⟨pre, hsplit⟩ := split_of_getLast? hlast
    rw [List.range'_succ, List.map_cons]
    exact .step hs (by rw [nextSlice, hlast]; rfl) (ih (by omega) (h.arrange_after n hsplit))

/-- In front of the first item of a block, a walk backwards sees the blocks before it. -/
theorem trail_backwards (h : Placed key order items) {n : UInt64} (hn : 0 < n.toNat) {k : Nat}
    {x : α} (hx : (block n.toNat (sortItems key order items) k).head? = some x) :
    Trail key order items (previousSlice key order n)
      { limit := some n, before := some (cursorOf key order x) }
      (((List.range k).map (block n.toNat (sortItems key order items))).reverse ++ [[]]) := by
  induction k generalizing x with
  | zero =>
    obtain ⟨post, hsplit⟩ := split_of_head? hx
    have hshows := h.arrange_before n hsplit
    rw [Nat.zero_mul, List.take_zero, List.drop_nil] at hshows
    exact .last hshows rfl
  | succ k ih =>
    obtain ⟨post, hsplit⟩ := split_of_head? hx
    have hshows := h.arrange_before n hsplit
    have hcount : k + 1 < blockCount n.toNat (sortItems key order items) := by
      refine Nat.not_le.mp fun hle => ?_
      rw [(block_eq_nil_iff hn).mpr hle] at hx
      exact absurd hx (by simp)
    -- What is in front of block `k + 1` ends with all of block `k`.
    have hlength : ((sortItems key order items).take ((k + 1) * n.toNat)).length - n.toNat =
        k * n.toNat := by
      have := (lt_blockCount_iff hn _).mp hcount
      rw [List.length_take, Nat.min_eq_left (Nat.le_of_lt this), Nat.succ_mul]
      omega
    have hpage : ((sortItems key order items).take ((k + 1) * n.toNat)).drop (k * n.toNat) =
        block n.toNat (sortItems key order items) k := by
      rw [List.drop_take, block, Nat.succ_mul, Nat.add_sub_cancel_left]
    rw [hlength, hpage] at hshows
    have hne : block n.toNat (sortItems key order items) k ≠ [] := fun hnil => by
      have := (block_eq_nil_iff hn).mp hnil
      omega
    have hhead := List.head?_eq_some_head hne
    rw [List.range_succ, List.map_append, List.reverse_append, List.append_assoc]
    exact .step hshows (by rw [previousSlice, hhead]; rfl) (ih hhead)

end Placed

/-- **A walk with cursors sees every item once.**  Forwards from the start it gives the blocks of
the ordered items one after the other and then an empty page, backwards from the first item of a
block the blocks before it and then an empty page, even if every page is computed from another
rearrangement of the items. -/
theorem walk_pages (key : α → String → Value) (order : List OrderKey) (items : List α)
    (n : UInt64) (hn : 1 ≤ n) (horder : order ≠ [])
    (hfields : (order.map OrderKey.field).Nodup) (hpre : Preordered key order items [])
    (huntied : items.Pairwise fun x y => ¬Tied order (tupleOf key order x) (tupleOf key order y)) :
    ∃ sorted : List α, sorted.Perm items ∧
      (sorted.Pairwise fun x y => Precedes order (tupleOf key order x) (tupleOf key order y)) ∧
      (blocks n.toNat sorted).flatten = sorted ∧
      ∀ snapshots : List (List α), (∀ others ∈ snapshots, others.Perm items) →
        walk key order (nextSlice key order n) snapshots { limit := some n } =
          .ok ((blocks n.toNat sorted ++ [[]]).take snapshots.length) ∧
        ∀ k page x, (blocks n.toNat sorted)[k]? = some page → page.head? = some x →
          walk key order (previousSlice key order n) snapshots
              { limit := some n, before := some (cursorOf key order x) } =
            .ok ((((blocks n.toNat sorted).take k).reverse ++ [[]]).take snapshots.length) := by
  have h : Placed key order items := ⟨horder, hfields, hpre, huntied⟩
  have hpos : 0 < n.toNat := UInt64.le_iff_toNat_le.mp hn
  refine ⟨sortItems key order items, sortItems_perm key order items, ?_, flatten_blocks hpos,
    fun snapshots hsnapshots => ⟨?_, ?_⟩⟩
  · exact h.sortItems_pairwise_lt.imp fun hxy => compareTuples_eq_lt_iff.mp hxy
  · have hfirst : Shows key order items { limit := some n }
        (block n.toNat (sortItems key order items) 0) := by
      rw [block, Nat.zero_mul, List.drop_zero]
      exact h.arrange_first n
    have htrail := h.trail_forwards hpos (Nat.zero_add _) hfirst
    have hend : block n.toNat (sortItems key order items)
        (blockCount n.toNat (sortItems key order items)) = [] :=
      (block_eq_nil_iff hpos).mpr (Nat.le_refl _)
    rw [← List.range_eq_range', List.range_succ, List.map_append, List.map_singleton, hend,
      ← blocks] at htrail
    exact walk_of_trail htrail hsnapshots
  · intro k page x hpage hx
    rw [blocks, List.getElem?_map] at hpage
    obtain ⟨i, hi, rfl⟩ := Option.map_eq_some_iff.mp hpage
    obtain ⟨hlt, rfl⟩ := List.getElem?_eq_some_iff.mp hi
    rw [List.length_range] at hlt
    rw [List.getElem_range] at hx
    rw [blocks, ← List.map_take, List.take_range, Nat.min_eq_left (Nat.le_of_lt hlt)]
    exact walk_of_trail (h.trail_backwards hpos hx) hsnapshots

theorem walk_pages_ages :
    let order : List OrderKey := [⟨"age", .desc⟩, ⟨"name", .asc⟩]
    ∃ sorted : List Row, sorted.Perm ages ∧ (blocks 3 sorted).flatten = sorted ∧
      walk Row.valueAt order (nextSlice Row.valueAt order 3) [ages, ages.reverse, ages]
          { limit := some 3 } = .ok (blocks 3 sorted ++ [[]]) := by
  intro order
  obtain ⟨sorted, hperm, -, hblocks, hwalk⟩ := walk_pages Row.valueAt order ages 3 (by decide)
    (by decide) (by decide) (by decide +kernel) (by decide +kernel)
  have hlength : sorted.length = 4 := hperm.length_eq
  have hsnapshots : ∀ others ∈ [ages, ages.reverse, ages], others.Perm ages := by
    intro others hothers
    simp only [List.mem_cons, List.not_mem_nil, or_false] at hothers
    rcases hothers with rfl | rfl | rfl
    · exact .refl _
    · exact List.reverse_perm _
    · exact .refl _
  refine ⟨sorted, hperm, hblocks, (hwalk _ hsnapshots).1.trans ?_⟩
  rw [List.take_of_length_le]
  · rfl
  · simp [blocks, blockCount, hlength]

end GraphQuery
