/-
# Where the order of values is transitive

Two whole numbers are compared exactly, but a whole number that meets a floating point number is
rounded first.  So two whole numbers that round to the same number both tie with it, although one of
them is greater than the other (`cmp_not_transitive` has three such numbers, next to `2 ^ 53`).

Nothing else is in the way.  Over a set of numbers, the comparison of all values that are built from
them, lists and maps of any nesting, is a total preorder exactly if no floating point number of the
set is what two different whole numbers of the set round to (**`cmp_total_iff`**).  So it is one
where all whole numbers have at most 53 bits (`preorderedOn_exact`).

The proof goes down three values at once.  What it carries is `Chained`: of the three comparisons of
three values, the last one follows from the first two wherever a total preorder would have it so.
-/
import GraphQuery.Proofs.Binary64.Rounding
import GraphQuery.Proofs.Value.Order

namespace GraphQuery

/-! ## 1. Comparisons of three values -/

/-- The answers for a first value with a second, the second with a third, and the first with the
third, go together: a tie is passed over, and where both answers are the same it is the answer. -/
structure Chained (ab bc ac : Ordering) : Prop where
  of_tie_left : ab = .eq → ac = bc
  of_tie_right : bc = .eq → ac = ab
  of_same : ab = bc → ac = ab

namespace Chained

variable {ab bc ac ab' bc' ac' : Ordering}

theorem ne_gt (h : Chained ab bc ac) (hab : ab ≠ .gt) (hbc : bc ≠ .gt) : ac ≠ .gt := by
  obtain ⟨hleft, hright, hsame⟩ := h
  cases ab <;> cases bc <;> simp_all

theorem eq_eq (h : Chained ab bc ac) (hab : ab = .eq) (hbc : bc = .eq) : ac = .eq :=
  (h.of_tie_left hab).trans hbc

theorem of_decided_left (hab : ab ≠ .eq) : Chained ab bc ab :=
  ⟨fun h => absurd h hab, fun _ => rfl, fun _ => rfl⟩

theorem of_decided_right (hbc : bc ≠ .eq) : Chained ab bc bc :=
  ⟨fun _ => rfl, fun h => absurd h hbc, Eq.symm⟩

/-- A second comparison counts where the first one ties, and it matters for all three values only
where it ties twice. -/
theorem thenWith (h : Chained ab bc ac)
    (h' : ab = .eq → bc = .eq → Chained ab' bc' ac') :
    Chained (ab.then ab') (bc.then bc') (ac.then ac') := by
  have hdecided : ∀ {o o' : Ordering}, o ≠ .eq → o.then o' = o := by
    intro o o' ho
    cases o <;> first | rfl | exact absurd rfl ho
  by_cases hab : ab = .eq
  · rw [h.of_tie_left hab]
    by_cases hbc : bc = .eq
    · rw [hab, hbc]
      exact h' hab hbc
    · rw [hdecided hbc, hdecided hbc]
      exact of_decided_right hbc
  · rw [hdecided hab]
    by_cases hbc : bc = .eq
    · rw [h.of_tie_right hbc, hdecided hab]
      exact of_decided_left hab
    · rw [hdecided hbc]
      refine ⟨fun h => absurd h hab, fun h => absurd h hbc, fun hsame => ?_⟩
      rw [h.of_same hsame, hdecided hab]

end Chained

theorem chained_compare {α : Type} [Ord α] [Std.TransOrd α] (a b c : α) :
    Chained (compare a b) (compare b c) (compare a c) where
  of_tie_left h := Std.TransCmp.congr_left h
  of_tie_right h := (Std.TransCmp.congr_right h).symm
  of_same h := by
    cases hab : compare a b with
    | lt => exact Std.TransCmp.lt_trans hab (h ▸ hab)
    | eq => exact Std.TransCmp.eq_trans hab (h ▸ hab)
    | gt => exact Std.TransCmp.gt_trans hab (h ▸ hab)

namespace Value

/-! ## 2. Kinds -/

/-- Values of different kinds are compared by kind alone. -/
theorem rank_then_cmp (a b : Value) : (compare a.rank b.rank).then (a.cmp b) = a.cmp b := by
  cases a <;> cases b <;> rfl

/-- It is enough to look at three values of one kind. -/
theorem chained_of_rank {a b c : Value}
    (h : b.rank = a.rank → c.rank = a.rank → Chained (a.cmp b) (b.cmp c) (a.cmp c)) :
    Chained (a.cmp b) (b.cmp c) (a.cmp c) := by
  rw [← rank_then_cmp a b, ← rank_then_cmp b c, ← rank_then_cmp a c]
  refine (chained_compare a.rank b.rank c.rank).thenWith fun hab hbc => ?_
  have hb : a.rank = b.rank := Nat.compare_eq_eq.mp hab
  have hc : b.rank = c.rank := Nat.compare_eq_eq.mp hbc
  exact h hb.symm (hb.trans hc).symm

/-- The values of the kind of a given one, numbers of both kinds taken together. -/
def SameKind : Value → Value → Prop
  | null, v => v = null
  | bool _, v => ∃ b, v = bool b
  | int _, v | float _, v => v.isNumber = true
  | string _, v => ∃ s, v = string s
  | list _, v => ∃ items, v = list items
  | map _, v => ∃ entries, v = map entries

theorem sameKind_of_rank {a v : Value} (h : v.rank = a.rank) : a.SameKind v := by
  cases a <;> cases v <;> simp [rank, SameKind, isNumber] at h ⊢

theorem isNumber_iff {v : Value} :
    v.isNumber = true ↔ (∃ i, v = int i) ∨ ∃ x, v = float x := by
  cases v <;> simp [isNumber]

/-! ## 3. Numbers -/

/-- Every number inside the value is one of the given ones. -/
inductive NumbersIn (whole : Int64 → Prop) (floating : Binary64 → Prop) : Value → Prop
  | null : NumbersIn whole floating null
  | bool {b : Bool} : NumbersIn whole floating (bool b)
  | int {i : Int64} (h : whole i) : NumbersIn whole floating (int i)
  | float {x : Binary64} (h : floating x) : NumbersIn whole floating (float x)
  | string {s : String} : NumbersIn whole floating (string s)
  | list {items : List Value} (h : ∀ v ∈ items, NumbersIn whole floating v) :
      NumbersIn whole floating (list items)
  | map {entries : List (String × Value)} (h : ∀ e ∈ entries, NumbersIn whole floating e.2) :
      NumbersIn whole floating (map entries)

/-- No floating point number among the given ones is what two of the whole numbers round to. -/
def Separated (whole : Int64 → Prop) (floating : Binary64 → Prop) : Prop :=
  ∀ i j, whole i → whole j → floating (.ofInt i.toInt) →
    Binary64.ofInt i.toInt = Binary64.ofInt j.toInt → i = j

/-- The place of a number among the floating point numbers, after rounding. -/
def place : Value → Int
  | int i => (Binary64.ofInt i.toInt).orderKey
  | float x => x.orderKey
  | _ => 0

/-- What is left to compare between two numbers with one place. -/
def cmpWhole : Value → Value → Ordering
  | int a, int b => compare a.toInt b.toInt
  | _, _ => .eq

/-- Since rounding keeps the order, whole numbers too may be compared by their places first. -/
theorem place_then_compare (i j : Int64) :
    (compare (int i).place (int j).place).then (compare i.toInt j.toInt) =
      compare i.toInt j.toInt := by
  cases hplace : compare (int i).place (int j).place with
  | eq => rfl
  | lt =>
    have hlt : i.toInt < j.toInt := by
      refine Int.not_le.mp fun hle => ?_
      have hmono : (int j).place ≤ (int i).place := Binary64.orderKey_ofInt_mono hle
      exact Int.not_le.mpr (Int.compare_eq_lt.mp hplace) hmono
    exact (Int.compare_eq_lt.mpr hlt).symm
  | gt =>
    have hgt : j.toInt < i.toInt := by
      refine Int.not_le.mp fun hle => ?_
      have hmono : (int i).place ≤ (int j).place := Binary64.orderKey_ofInt_mono hle
      exact Int.not_le.mpr (Int.compare_eq_gt.mp hplace) hmono
    exact (Int.compare_eq_gt.mpr hgt).symm

theorem place_then_cmpWhole {a b : Value} (ha : a.isNumber = true) (hb : b.isNumber = true) :
    (compare a.place b.place).then (cmpWhole a b) = a.cmp b := by
  rcases isNumber_iff.mp ha with ⟨i, rfl⟩ | ⟨x, rfl⟩ <;>
    rcases isNumber_iff.mp hb with ⟨j, rfl⟩ | ⟨y, rfl⟩
  · exact place_then_compare i j
  · exact Ordering.then_eq
  · exact Ordering.then_eq
  · exact Ordering.then_eq

section

variable {whole : Int64 → Prop} {floating : Binary64 → Prop} {a b c : Value}

/-- Whole numbers with the place of a floating point number are the same. -/
theorem Separated.eq_of_place (h : Separated whole floating) {i j : Int64} {x : Binary64}
    (hi : (int i).NumbersIn whole floating) (hj : (int j).NumbersIn whole floating)
    (hx : (float x).NumbersIn whole floating) (hix : (int i).place = (float x).place)
    (hjx : (int j).place = (float x).place) : i = j := by
  cases hi with | int hi => ?_
  cases hj with | int hj => ?_
  cases hx with | float hx => ?_
  have hxi : Binary64.ofInt i.toInt = x := Binary64.orderKey_injective hix
  have hxj : Binary64.ofInt j.toInt = x := Binary64.orderKey_injective hjx
  exact h i j hi hj (hxi ▸ hx) (hxi.trans hxj.symm)

/-- Between numbers with one place there is something left to compare only if all are whole. -/
theorem chained_cmpWhole (h : Separated whole floating) (ha : a.NumbersIn whole floating)
    (hb : b.NumbersIn whole floating) (hc : c.NumbersIn whole floating)
    (hna : a.isNumber = true) (hnb : b.isNumber = true) (hnc : c.isNumber = true)
    (hab : a.place = b.place) (hbc : b.place = c.place) :
    Chained (cmpWhole a b) (cmpWhole b c) (cmpWhole a c) := by
  have hself : ∀ i : Int64, compare i.toInt i.toInt = .eq := fun i => Std.ReflCmp.compare_self
  have hties : Chained .eq .eq .eq := ⟨fun _ => rfl, fun _ => rfl, fun _ => rfl⟩
  rcases isNumber_iff.mp hna with ⟨i, rfl⟩ | ⟨x, rfl⟩ <;>
    rcases isNumber_iff.mp hnb with ⟨j, rfl⟩ | ⟨y, rfl⟩ <;>
    rcases isNumber_iff.mp hnc with ⟨k, rfl⟩ | ⟨z, rfl⟩
  · exact chained_compare i.toInt j.toInt k.toInt
  · obtain rfl := h.eq_of_place ha hb hc (hab.trans hbc) hbc
    show Chained (compare i.toInt i.toInt) .eq .eq
    exact (hself i).symm ▸ hties
  · obtain rfl := h.eq_of_place ha hc hb hab hbc.symm
    show Chained .eq .eq (compare i.toInt i.toInt)
    exact (hself i).symm ▸ hties
  · exact hties
  · obtain rfl := h.eq_of_place hb hc ha hab.symm (hab.trans hbc).symm
    show Chained .eq (compare j.toInt j.toInt) .eq
    exact (hself j).symm ▸ hties
  · exact hties
  · exact hties
  · exact hties

theorem chained_numbers (h : Separated whole floating) (ha : a.NumbersIn whole floating)
    (hb : b.NumbersIn whole floating) (hc : c.NumbersIn whole floating)
    (hna : a.isNumber = true) (hnb : b.isNumber = true) (hnc : c.isNumber = true) :
    Chained (a.cmp b) (b.cmp c) (a.cmp c) := by
  rw [← place_then_cmpWhole hna hnb, ← place_then_cmpWhole hnb hnc, ← place_then_cmpWhole hna hnc]
  refine (chained_compare a.place b.place c.place).thenWith fun hab hbc => ?_
  exact chained_cmpWhole h ha hb hc hna hnb hnc (Std.LawfulEqOrd.eq_of_compare hab)
    (Std.LawfulEqOrd.eq_of_compare hbc)

/-! ## 4. All values -/

mutual
/-- **The comparisons of three values over separated numbers go together.** -/
theorem chained_cmp (h : Separated whole floating) : (a b c : Value) →
    a.NumbersIn whole floating → b.NumbersIn whole floating → c.NumbersIn whole floating →
    Chained (a.cmp b) (b.cmp c) (a.cmp c)
  | null, b, c, _, _, _ => chained_of_rank fun hb hc => by
    obtain rfl := sameKind_of_rank hb
    obtain rfl := sameKind_of_rank hc
    exact chained_compare (0 : Nat) 0 0
  | bool a, b, c, _, _, _ => chained_of_rank fun hb hc => by
    obtain ⟨b, rfl⟩ := sameKind_of_rank hb
    obtain ⟨c, rfl⟩ := sameKind_of_rank hc
    exact chained_compare a b c
  | int _, b, c, ha, hb, hc => chained_of_rank fun hbr hcr =>
    chained_numbers h ha hb hc rfl (sameKind_of_rank hbr) (sameKind_of_rank hcr)
  | float _, b, c, ha, hb, hc => chained_of_rank fun hbr hcr =>
    chained_numbers h ha hb hc rfl (sameKind_of_rank hbr) (sameKind_of_rank hcr)
  | string a, b, c, _, _, _ => chained_of_rank fun hb hc => by
    obtain ⟨b, rfl⟩ := sameKind_of_rank hb
    obtain ⟨c, rfl⟩ := sameKind_of_rank hc
    exact chained_compare a b c
  | list as, b, c, ha, hb, hc => chained_of_rank fun hbr hcr => by
    obtain ⟨bs, rfl⟩ := sameKind_of_rank hbr
    obtain ⟨cs, rfl⟩ := sameKind_of_rank hcr
    cases ha with | list ha => ?_
    cases hb with | list hb => ?_
    cases hc with | list hc => ?_
    exact chained_cmpItems h as bs cs ha hb hc
  | map as, b, c, ha, hb, hc => chained_of_rank fun hbr hcr => by
    obtain ⟨bs, rfl⟩ := sameKind_of_rank hbr
    obtain ⟨cs, rfl⟩ := sameKind_of_rank hcr
    cases ha with | map ha => ?_
    cases hb with | map hb => ?_
    cases hc with | map hc => ?_
    exact chained_cmpEntries h as bs cs ha hb hc
theorem chained_cmpItems (h : Separated whole floating) : (as bs cs : List Value) →
    (∀ v ∈ as, v.NumbersIn whole floating) → (∀ v ∈ bs, v.NumbersIn whole floating) →
    (∀ v ∈ cs, v.NumbersIn whole floating) →
    Chained (cmpItems as bs) (cmpItems bs cs) (cmpItems as cs)
  | [], bs, cs, _, _, _ => by
    cases bs <;> cases cs <;> constructor <;> simp [cmpItems]
  | a :: as, bs, cs, ha, hb, hc => by
    cases bs with
    | nil => cases cs <;> constructor <;> simp [cmpItems]
    | cons b bs =>
      cases cs with
      | nil =>
        show Chained _ .gt .gt
        exact .of_decided_right nofun
      | cons c cs =>
        obtain ⟨ha, has⟩ := List.forall_mem_cons.mp ha
        obtain ⟨hb, hbs⟩ := List.forall_mem_cons.mp hb
        obtain ⟨hc, hcs⟩ := List.forall_mem_cons.mp hc
        rw [cmpItems, cmpItems, cmpItems]
        exact (chained_cmp h a b c ha hb hc).thenWith fun _ _ =>
          chained_cmpItems h as bs cs has hbs hcs
theorem chained_cmpEntries (h : Separated whole floating) : (as bs cs : List (String × Value)) →
    (∀ e ∈ as, e.2.NumbersIn whole floating) → (∀ e ∈ bs, e.2.NumbersIn whole floating) →
    (∀ e ∈ cs, e.2.NumbersIn whole floating) →
    Chained (cmpEntries as bs) (cmpEntries bs cs) (cmpEntries as cs)
  | [], bs, cs, _, _, _ => by
    cases bs <;> cases cs <;> constructor <;> simp [cmpEntries]
  | (k, a) :: as, bs, cs, ha, hb, hc => by
    cases bs with
    | nil => cases cs <;> constructor <;> simp [cmpEntries]
    | cons e bs =>
      cases cs with
      | nil =>
        show Chained _ .gt .gt
        exact .of_decided_right nofun
      | cons f cs =>
        obtain ⟨l, b⟩ := e
        obtain ⟨m, c⟩ := f
        obtain ⟨ha, has⟩ := List.forall_mem_cons.mp ha
        obtain ⟨hb, hbs⟩ := List.forall_mem_cons.mp hb
        obtain ⟨hc, hcs⟩ := List.forall_mem_cons.mp hc
        rw [cmpEntries, cmpEntries, cmpEntries]
        have hkeys : Chained (compareText k l) (compareText l m) (compareText k m) :=
          chained_compare k l m
        exact hkeys.thenWith fun _ _ => (chained_cmp h a b c ha hb hc).thenWith fun _ _ =>
          chained_cmpEntries h as bs cs has hbs hcs
end

/-- Two whole numbers that round to one number tie with it. -/
theorem cmp_float_of_ofInt_eq {i : Int64} {x : Binary64} (h : Binary64.ofInt i.toInt = x) :
    (int i).cmp (float x) = .eq ∧ (float x).cmp (int i) = .eq := by
  have hself : x.compare x = .eq := Std.compare_self (a := x.orderKey)
  rw [cmp, cmp, h]
  exact ⟨hself, hself⟩

/-- Transitivity of ties alone keeps numbers apart. -/
theorem separated_of_trans
    (h : ∀ a b c : Value, a.NumbersIn whole floating → b.NumbersIn whole floating →
      c.NumbersIn whole floating → a.cmp b = .eq → b.cmp c = .eq → a.cmp c = .eq) :
    Separated whole floating := by
  intro i j hi hj hx hij
  have htie : (int i).cmp (int j) = .eq :=
    h _ _ _ (.int hi) (.float hx) (.int hj) (cmp_float_of_ofInt_eq rfl).1
      (cmp_float_of_ofInt_eq hij.symm).2
  have heq : i.toInt = j.toInt := Std.LawfulEqOrd.eq_of_compare htie
  exact Int64.toInt_inj.mp heq

end

theorem preorderedOn_numbersIn {whole : Int64 → Prop} {floating : Binary64 → Prop}
    (h : Separated whole floating) : PreorderedOn (NumbersIn whole floating) :=
  fun a b c ha hb hc hab hbc => (chained_cmp h a b c ha hb hc).ne_gt hab hbc

/-- The whole numbers that have at most 53 bits. -/
def IsExact (i : Int64) : Prop := i.toInt.natAbs ≤ Binary64.exactLimit

/-- **Where whole numbers have at most 53 bits, the comparison is a total preorder**, whatever the
floating point numbers are. -/
theorem preorderedOn_exact : PreorderedOn (NumbersIn IsExact fun _ => True) :=
  preorderedOn_numbersIn fun _ _ hi hj _ hij => Int64.toInt_inj.mp (Binary64.ofInt_injective hi hj hij)

/-- **When the order of values is total.**  Turning a comparison round swaps its answer.  Over given
numbers, comparisons and ties are transitive exactly if no floating point number is what two
different whole numbers round to. -/
theorem cmp_total_iff (whole : Int64 → Prop) (floating : Binary64 → Prop) :
    (∀ a b : Value, b.cmp a = (a.cmp b).swap) ∧
      ((∀ a b c : Value, a.NumbersIn whole floating → b.NumbersIn whole floating →
          c.NumbersIn whole floating →
          (a.cmp b ≠ .gt → b.cmp c ≠ .gt → a.cmp c ≠ .gt) ∧
            (a.cmp b = .eq → b.cmp c = .eq → a.cmp c = .eq)) ↔
        ∀ i j, whole i → whole j → floating (.ofInt i.toInt) →
          Binary64.ofInt i.toInt = Binary64.ofInt j.toInt → i = j) := by
  refine ⟨cmp_swap, fun h => ?_, fun h a b c ha hb hc => ?_⟩
  · exact separated_of_trans fun a b c ha hb hc => (h a b c ha hb hc).2
  · have hchained := chained_cmp h a b c ha hb hc
    exact ⟨hchained.ne_gt, hchained.eq_eq⟩

/-- A whole number of 54 bits ties with the floating point number below it, which ties with the
whole number below it. -/
theorem cmp_not_transitive :
    ¬ ∀ a b c : Value, (a.cmp b ≠ .gt → b.cmp c ≠ .gt → a.cmp c ≠ .gt) ∧
      (a.cmp b = .eq → b.cmp c = .eq → a.cmp c = .eq) := by
  intro h
  have h := h (int 9007199254740993) (float (.ofInt 9007199254740992)) (int 9007199254740992)
  exact absurd h (by decide +kernel)

end Value

end GraphQuery
