/-
# Windows in machine words, and pages

`Slice.bounds` gives the places of a window as whole numbers.  A machine has words of 64 bits, and
a limit and an offset may be any of them.  `Slice.wordBounds` computes the places with words: where
an addition would wrap round it stops at the greatest word, and where a subtraction would, at zero.
Both computations agree for every limit, every offset and every number of items (`toNat_wordBounds`),
so the guards never show.  The last step, from the places to the number of items between them, has
no guard and needs none, since a window never stops before it starts.

A page is a window of fixed size that passes over the pages before it.  Pages lie side by side: the
first ones together are the first items, or the last ones where windows are counted from the end.

**`arrange_pages`** states both of what a slice leaves between its anchors.  For this the order of the
items does not matter, so it is stated for any sort, as long as that gives an order at all.
-/
import GraphQuery.Proofs.Ordering.Cursors
import GraphQuery.Proofs.Ordering.Windows

namespace GraphQuery

variable {α : Type}

/-! ## 1. Words -/

/-- The sum of two words, or the greatest word if the sum is none. -/
def addSaturating (a b : UInt64) : UInt64 :=
  if a + b < a then .ofNat (UInt64.size - 1) else a + b

/-- The difference of two words, or zero if the second is greater. -/
def subSaturating (a b : UInt64) : UInt64 := if b ≤ a then a - b else 0

theorem toNat_addSaturating (a b : UInt64) :
    (addSaturating a b).toNat = min (a.toNat + b.toNat) (UInt64.size - 1) := by
  have ha := a.toNat_lt
  have hb := b.toNat_lt
  unfold addSaturating
  split
  · next hwraps =>
    rw [UInt64.lt_iff_toNat_lt, UInt64.toNat_add] at hwraps
    show 18446744073709551615 = min (a.toNat + b.toNat) 18446744073709551615
    omega
  · next hfits =>
    rw [UInt64.lt_iff_toNat_lt, UInt64.toNat_add] at hfits
    rw [UInt64.toNat_add]
    simp only [UInt64.size]
    omega

theorem toNat_subSaturating (a b : UInt64) :
    (subSaturating a b).toNat = a.toNat - b.toNat := by
  unfold subSaturating
  split
  · next hle => exact UInt64.toNat_sub_of_le _ _ hle
  · next hgt =>
    rw [UInt64.le_iff_toNat_le] at hgt
    show 0 = _
    omega

theorem toNat_min (a b : UInt64) : (min a b).toNat = min a.toNat b.toNat := by
  show (if a ≤ b then a else b).toNat = _
  split <;> next h => rw [UInt64.le_iff_toNat_le] at h; omega

namespace Slice

/-! ## 2. The places of a window -/

/-- The window is counted from the end. -/
def fromEnd (s : Slice) : Bool := s.before.isSome && s.after.isNone

/-- How many items a window takes: what is left behind the skipped ones, and no more than the
limit. -/
def extent (s : Slice) (length : Nat) : Nat :=
  match s.limit with
  | none => length - s.skipped
  | some n => min n.toNat (length - s.skipped)

/-- The places of a window among a number of items, computed with words. -/
def wordBounds (s : Slice) (length : UInt64) : UInt64 × UInt64 :=
  let offset := s.offset.getD 0
  if s.fromEnd then
    let stop := subSaturating length offset
    match s.limit with
    | none => (0, stop)
    | some n => (subSaturating stop n, stop)
  else
    let start := min offset length
    match s.limit with
    | none => (start, length)
    | some n => (start, min (addSaturating start n) length)

theorem toNat_offset (s : Slice) : (s.offset.getD 0).toNat = s.skipped := by
  unfold skipped
  cases s.offset <;> rfl

/-- **A window stops where it starts or behind that, among the items, and has its extent.** -/
theorem bounds_spec (s : Slice) (length : Nat) :
    (s.bounds length).1 ≤ (s.bounds length).2 ∧ (s.bounds length).2 ≤ length ∧
      (s.bounds length).2 - (s.bounds length).1 = s.extent length := by
  have hskipped : (s.offset.map UInt64.toNat).getD 0 = s.skipped := rfl
  unfold bounds extent
  rw [hskipped]
  split
  · cases s.limit with
    | none => dsimp only; omega
    | some n => dsimp only; omega
  · cases s.limit with
    | none => dsimp only; omega
    | some n => dsimp only; omega

/-- **Words give the same places.** -/
theorem toNat_wordBounds (s : Slice) (length : UInt64) :
    (s.wordBounds length).1.toNat = (s.bounds length.toNat).1 ∧
      (s.wordBounds length).2.toNat = (s.bounds length.toNat).2 := by
  have hskipped : (s.offset.map UInt64.toNat).getD 0 = s.skipped := rfl
  have hlength := length.toNat_lt
  unfold wordBounds bounds fromEnd
  rw [hskipped]
  split
  · cases s.limit with
    | none => simp [toNat_subSaturating, toNat_offset]
    | some n => simp [toNat_subSaturating, toNat_offset]
  · cases s.limit with
    | none => simp [toNat_min, toNat_offset]
    | some n =>
      simp only [toNat_min, toNat_addSaturating, toNat_offset, UInt64.size, true_and]
      omega

/-- The number of items between the places needs no guard. -/
theorem toNat_wordBounds_sub (s : Slice) (length : UInt64) :
    ((s.wordBounds length).2 - (s.wordBounds length).1).toNat = s.extent length.toNat := by
  obtain ⟨hstart, hstop⟩ := s.toNat_wordBounds length
  obtain ⟨hle, -, hextent⟩ := s.bounds_spec length.toNat
  have hword : (s.wordBounds length).1 ≤ (s.wordBounds length).2 := by
    rw [UInt64.le_iff_toNat_le, hstart, hstop]
    exact hle
  rw [UInt64.toNat_sub_of_le _ _ hword, hstart, hstop, hextent]

/-! ## 3. Pages -/

/-- The page with a number: as many items as the size says, behind those of the pages before. -/
def page (s : Slice) (n : UInt64) (k : Nat) : Slice :=
  { s with limit := some n, offset := some (.ofNat (k * n.toNat)) }

theorem skipped_page (s : Slice) {n : UInt64} {k : Nat} (h : k * n.toNat < UInt64.size) :
    (s.page n k).skipped = k * n.toNat :=
  Nat.mod_eq_of_lt h

/-- A page is a block of the items.  Counted from the end, it is one of the items in reverse. -/
theorem cut_page (s : Slice) {n : UInt64} {k : Nat} (h : k * n.toNat < UInt64.size)
    (xs : List α) :
    (s.page n k).cut xs =
      if s.fromEnd then (block n.toNat xs.reverse k).reverse else block n.toNat xs k := by
  rw [cut_eq_window, window, s.skipped_page h, fromEnd]
  show (if (s.before.isSome && s.after.isNone) = true then
    (xs.rdrop (k * n.toNat)).rtake n.toNat else (xs.drop (k * n.toNat)).take n.toNat) = _
  split
  · rw [List.rtake_eq_reverse_take_reverse, List.rdrop_eq_reverse_drop_reverse,
      List.reverse_reverse, block]
  · rw [block]

/-- The pages up to a number. -/
def pages (s : Slice) (n : UInt64) (count : Nat) (xs : List α) : List (List α) :=
  (List.range count).map fun k => (s.page n k).cut xs

/-- The first pages from the start are the first items. -/
theorem flatten_pages_start {s : Slice} (hs : s.fromEnd = false) {n : UInt64} {count : Nat}
    (h : ∀ k < count, k * n.toNat < UInt64.size) (xs : List α) :
    (s.pages n count xs).flatten = xs.take (count * n.toNat) := by
  rw [← flatten_range_block, pages]
  congr 1
  refine List.map_congr_left fun k hk => ?_
  rw [s.cut_page (h k (List.mem_range.mp hk)), hs]
  rfl

/-- The first pages from the end are, the last one first, the last items. -/
theorem flatten_pages_end {s : Slice} (hs : s.fromEnd = true) {n : UInt64} {count : Nat}
    (h : ∀ k < count, k * n.toNat < UInt64.size) (xs : List α) :
    (s.pages n count xs).reverse.flatten = xs.rtake (count * n.toNat) := by
  have hpages : s.pages n count xs =
      ((List.range count).map (block n.toNat xs.reverse)).map List.reverse := by
    rw [pages, List.map_map]
    refine List.map_congr_left fun k hk => ?_
    rw [s.cut_page (h k (List.mem_range.mp hk)), hs]
    rfl
  rw [hpages, ← List.reverse_flatten, flatten_range_block, List.rtake_eq_reverse_take_reverse]

/-- **Pages that reach far enough are all items, side by side.** -/
theorem flatten_pages (s : Slice) {n : UInt64} {count : Nat}
    (h : ∀ k < count, k * n.toNat < UInt64.size) {xs : List α} (hall : xs.length ≤ count * n.toNat) :
    (if s.fromEnd then (s.pages n count xs).reverse else s.pages n count xs).flatten = xs := by
  split
  · next hs =>
    have hreverse : xs.reverse.take (count * n.toNat) = xs.reverse :=
      List.take_of_length_le (by simpa using hall)
    rw [flatten_pages_end hs h, List.rtake_eq_reverse_take_reverse, hreverse, List.reverse_reverse]
  · next hs =>
    rw [flatten_pages_start (Bool.eq_false_iff.mpr hs) h, List.take_of_length_le hall]

end Slice

/-! ## 4. Windows and pages of what a slice leaves -/

/-- **Windows and pages.**  Whatever order a sort gives the items: of those that a slice leaves
without its counts, the counts take a run that lies among them and is as long as the extent says;
computed with words its places are the same, and no step wraps round.  Pages of one size that reach far
enough are all of these items, in the order of the pages, or in the opposite one where windows are
counted from the end. -/
theorem arrange_pages (key : α → String → Value) (sort : List α → Except QueryError (List α))
    (order : List OrderKey) (s : Slice) (items sorted : List α) (hs : s.check order = .ok ())
    (hsort : sort items = .ok sorted) :
    ∃ kept, arrangeBy key sort order s.unlimited items = .ok kept ∧
      (∃ start stop rows, s.bounds kept.length = (start, stop) ∧
        start ≤ stop ∧ stop ≤ kept.length ∧
        arrangeBy key sort order s items = .ok rows ∧ rows = (kept.drop start).take (stop - start) ∧
        rows.length = s.extent kept.length ∧
        ∀ length : UInt64, length.toNat = kept.length →
          (s.wordBounds length).1.toNat = start ∧ (s.wordBounds length).2.toNat = stop ∧
          ((s.wordBounds length).2 - (s.wordBounds length).1).toNat = stop - start) ∧
      ∀ n : UInt64, 1 ≤ n →
        (kept.length ≤ UInt64.size →
          ∀ k < blockCount n.toNat kept, k * n.toNat < UInt64.size) ∧
        ∀ count, blockCount n.toNat kept ≤ count → (∀ k < count, k * n.toNat < UInt64.size) →
          ∃ pages, (List.range count).mapM (fun k => arrangeBy key sort order (s.page n k) items) =
              .ok pages ∧
            (if s.fromEnd then pages.reverse else pages).flatten = kept := by
  obtain ⟨kept, hkept⟩ : ∃ kept, arrangeBy key sort order s.unlimited items = .ok kept :=
    ⟨_, by rw [arrangeBy, s.check_unlimited, hs, hsort]; rfl⟩
  have hcut : ∀ s' : Slice, s'.unlimited = s.unlimited →
      arrangeBy key sort order s' items = .ok (s'.cut kept) := by
    intro s' hs'
    rw [arrangeBy_eq_map_cut, hs', hkept]
    rfl
  refine ⟨kept, hkept, ?_, fun n hn => ?_⟩
  · obtain ⟨hle, hstop, hextent⟩ := s.bounds_spec kept.length
    refine ⟨_, _, s.cut kept, rfl, hle, hstop, hcut s rfl, s.cut_eq kept, ?_, ?_⟩
    · rw [s.cut_eq, List.length_take, List.length_drop, ← hextent]
      omega
    · intro length hlength
      rw [← hlength] at hextent ⊢
      obtain ⟨hfirst, hsecond⟩ := s.toNat_wordBounds length
      exact ⟨hfirst, hsecond, (s.toNat_wordBounds_sub length).trans hextent.symm⟩
  · have hpos : 0 < n.toNat := UInt64.le_iff_toNat_le.mp hn
    refine ⟨fun hsize k hk => ?_, fun count hcount hwords => ?_⟩
    · exact Nat.lt_of_lt_of_le ((lt_blockCount_iff hpos k).mp hk) hsize
    · refine ⟨s.pages n count kept, ?_, s.flatten_pages hwords ?_⟩
      · rw [mapM_eq_ok_iff, Slice.pages, List.forall₂_map_right_iff, List.forall₂_same]
        exact fun k _ => hcut _ rfl
      · exact Nat.not_lt.mp fun h => Nat.not_lt.mpr hcount ((lt_blockCount_iff hpos count).mpr h)

/-- The greatest limit there is, counted from the end behind one item, and the pages of two items. -/
theorem arrange_pages_ages :
    let order : List OrderKey := [⟨"age", .desc⟩, ⟨"name", .asc⟩]
    let s : Slice :=
      { limit := some 0xFFFFFFFFFFFFFFFF, offset := some 1, before := some [("age", .null)] }
    s.check order = .ok () ∧ isSettled Row.valueAt order ages = true ∧
      ∃ kept, arrange Row.valueAt order s.unlimited ages = .ok kept ∧ kept.length = 3 ∧
        arrange Row.valueAt order s ages = .ok (kept.take 2) ∧
        ∃ pages, (List.range 2).mapM (fun k => arrange Row.valueAt order (s.page 2 k) ages) =
          .ok pages ∧ pages.reverse.flatten = kept := by
  intro order s
  have hs : s.check order = .ok () := by decide +kernel
  have hsettled : isSettled Row.valueAt order ages = true := by decide +kernel
  obtain ⟨kept, hkept, ⟨start, stop, rows, hbounds, -, -, hrows, hcut, -⟩, hpages⟩ :=
    arrange_pages Row.valueAt _ order s ages _ hs (sortSettled_of_isSettled hsettled)
  change arrange Row.valueAt order s.unlimited ages = _ at hkept
  change arrange Row.valueAt order s ages = _ at hrows
  have hlength : kept.length = 3 := by
    have hcount : (arrange Row.valueAt order s.unlimited ages).map List.length = .ok 3 := by
      decide +kernel
    rw [hkept] at hcount
    exact Except.ok.inj hcount
  have hplaces : s.bounds 3 = (0, 2) := by decide
  rw [hlength, hplaces] at hbounds
  obtain ⟨rfl, rfl⟩ := Prod.mk.inj hbounds
  have hblocks : blockCount (2 : UInt64).toNat kept ≤ 2 := by
    rw [blockCount, hlength]
    decide
  obtain ⟨pages, hmapM, hflatten⟩ := (hpages 2 (by decide)).2 2 hblocks (by decide)
  exact ⟨hs, hsettled, kept, hkept, hlength, by rw [hrows, hcut]; rfl, pages, hmapM, hflatten⟩

end GraphQuery
