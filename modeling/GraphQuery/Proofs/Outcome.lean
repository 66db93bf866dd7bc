/-
# Computations that may fail

A computation in `Except` is a row of steps, and the first that fails decides.  The lemmas here take
a row apart: from a result, the results of all steps; from an error, the step that failed and the
results of those before it.

For a step taken for every item of a list, a result means that every step had one
(`mapM_eq_ok_iff`, `forM_eq_ok_iff`), and an error is the error of some item; of a check, that of the
first item that does not pass (`forM_eq_error_iff`).

`FailsOnly P x` bounds the errors of a computation; a row of steps stays within the bound if each of
its steps does.

`SameUnless P x y` compares two computations: `y` comes out as `x` does, unless `x` fails with an
error that has the property.  Rows of steps are compared step by step, since a step is only taken
when those before it have had their results.  `Keeps x y` asks for no more than the results of `x`.

`Corresponds E R x y` compares them up to relations: both have results, which `R` relates, or both
fail with errors, which `E` relates.
-/
import Mathlib.Data.List.Forall2

namespace GraphQuery

variable {ε α β : Type}

/-! ## 1. Two steps -/

theorem isOk_iff {x : Except ε α} : x.isOk = true ↔ ∃ a, x = .ok a := by
  cases x <;> simp [Except.isOk, Except.toBool]

theorem check_of_isOk {x : Except ε Unit} (h : x.isOk = true) : x = .ok () := by
  obtain ⟨⟨⟩, h⟩ := isOk_iff.mp h
  exact h

theorem bind_eq_ok {x : Except ε α} {f : α → Except ε β} {b : β} :
    (x >>= f) = .ok b ↔ ∃ a, x = .ok a ∧ f a = .ok b := by
  cases x <;> simp [bind, Except.bind]

theorem bind_eq_error {x : Except ε α} {f : α → Except ε β} {e : ε} :
    (x >>= f) = .error e ↔ x = .error e ∨ ∃ a, x = .ok a ∧ f a = .error e := by
  cases x <;> simp [bind, Except.bind]

/-- A check before a step has nothing to hand on. -/
theorem check_bind_eq_ok {x : Except ε Unit} {f : Unit → Except ε β} {b : β} :
    (x >>= f) = .ok b ↔ x = .ok () ∧ f () = .ok b := by
  rw [bind_eq_ok]
  constructor
  · rintro ⟨⟨⟩, hx, hf⟩
    exact ⟨hx, hf⟩
  · rintro ⟨hx, hf⟩
    exact ⟨(), hx, hf⟩

theorem ok_bind (a : α) (f : α → Except ε β) : (Except.ok a >>= f) = f a := rfl

theorem error_bind (e : ε) (f : α → Except ε β) : (Except.error e >>= f) = .error e := rfl

theorem pure_eq_ok {a b : α} : (pure a : Except ε α) = .ok b ↔ a = b := by
  simp [pure, Except.pure]

theorem pure_eq_error {a : α} {e : ε} : (pure a : Except ε α) = .error e ↔ False := by
  simp [pure, Except.pure]

theorem map_bind {γ : Type} (x : Except ε α) (g : α → β) (f : β → Except ε γ) :
    (x.map g >>= f) = (x >>= fun a => f (g a)) := by
  cases x <;> rfl

theorem map_eq_ok {x : Except ε α} {f : α → β} {b : β} :
    x.map f = .ok b ↔ ∃ a, x = .ok a ∧ f a = b := by
  cases x <;> simp [Except.map]

theorem map_eq_error {x : Except ε α} {f : α → β} {e : ε} :
    x.map f = .error e ↔ x = .error e := by
  cases x <;> simp [Except.map]

/-- What a call leaves is taken if the call succeeds. -/
theorem map_snd_eq_ok {x : Except ε Unit × α} {a : α} :
    (x.1.map fun _ => x.2) = .ok a ↔ x = (.ok (), a) := by
  obtain ⟨_ | _, _⟩ := x <;> simp [Except.map]

/-- A step for an optional item is taken if there is one. -/
theorem option_mapM_eq_ok_iff {f : α → Except ε β} {o : Option α} {r : Option β} :
    o.mapM f = .ok r ↔ (o = none ∧ r = none) ∨ ∃ a b, o = some a ∧ f a = .ok b ∧ r = some b := by
  cases o with
  | none =>
    rw [Option.mapM_none, pure_eq_ok]
    simp [eq_comm]
  | some a =>
    rw [Option.mapM_some, show some <$> f a = (f a).map some from rfl, map_eq_ok]
    simp [eq_comm]

/-- A step that takes an optional item back gives the item. -/
theorem option_mapM_map_eq_ok {f : α → Except ε β} {g : β → α} {o : Option β}
    (h : ∀ b, o = some b → f (g b) = .ok b) : (o.map g).mapM f = .ok o := by
  cases o with
  | none => rfl
  | some b => rw [Option.map_some, Option.mapM_some, h b rfl]; rfl

/-! ## 2. A step for every item -/

/-- The results of a step for every item are those of the items, in order. -/
theorem mapM_eq_ok_iff {f : α → Except ε β} {xs : List α} {ys : List β} :
    xs.mapM f = .ok ys ↔ List.Forall₂ (fun x y => f x = .ok y) xs ys := by
  induction xs generalizing ys with
  | nil => rw [List.mapM_nil, pure_eq_ok, List.forall₂_nil_left_iff, eq_comm]
  | cons x rest ih =>
    simp only [List.mapM_cons, bind_eq_ok, pure_eq_ok, ih, List.forall₂_cons_left_iff]
    constructor
    · rintro ⟨y, hy, ys', hys, rfl⟩
      exact ⟨y, ys', hy, hys, rfl⟩
    · rintro ⟨y, ys', hy, hys, rfl⟩
      exact ⟨y, hy, ys', hys, rfl⟩

/-- Every result of a step for every item is that of one of them. -/
theorem exists_of_mem_mapM {f : α → Except ε β} {xs : List α} {ys : List β}
    (h : xs.mapM f = .ok ys) {y : β} (hy : y ∈ ys) : ∃ x ∈ xs, f x = .ok y := by
  rw [mapM_eq_ok_iff] at h
  induction h with
  | nil => simp at hy
  | cons hx _ ih =>
    rcases List.mem_cons.mp hy with rfl | hy
    · exact ⟨_, List.mem_cons_self, hx⟩
    · obtain ⟨x, hmem, hfx⟩ := ih hy
      exact ⟨x, List.mem_cons_of_mem _ hmem, hfx⟩

/-- If every step has a result, then so have all of them. -/
theorem exists_mapM_eq_ok {f : α → Except ε β} {xs : List α} (h : ∀ x ∈ xs, ∃ y, f x = .ok y) :
    ∃ ys, xs.mapM f = .ok ys := by
  simp only [mapM_eq_ok_iff]
  induction xs with
  | nil => exact ⟨[], .nil⟩
  | cons x rest ih =>
    obtain ⟨hx, hrest⟩ := List.forall_mem_cons.mp h
    obtain ⟨y, hy⟩ := hx
    obtain ⟨ys, hys⟩ := ih hrest
    exact ⟨y :: ys, .cons hy hys⟩

/-- What every step keeps of its item, all of them keep, in order. -/
theorem map_eq_of_mapM {γ : Type} {f : α → Except ε β} {xs : List α} {ys : List β} {j : α → γ}
    {k : β → γ} (h : xs.mapM f = .ok ys) (hf : ∀ x y, f x = .ok y → k y = j x) :
    ys.map k = xs.map j := by
  rw [mapM_eq_ok_iff] at h
  induction h with
  | nil => rfl
  | cons hx _ ih => rw [List.map_cons, List.map_cons, hf _ _ hx, ih]

/-- A step that takes every item back gives the items. -/
theorem mapM_map_eq_ok {f : α → Except ε β} {g : β → α} {ys : List β}
    (h : ∀ y ∈ ys, f (g y) = .ok y) : (ys.map g).mapM f = .ok ys := by
  rw [mapM_eq_ok_iff, List.forall₂_map_left_iff, List.forall₂_same]
  exact h

/-- An error of a step for every item is that of one of them. -/
theorem exists_error_of_mapM {f : α → Except ε β} {xs : List α} {e : ε}
    (h : xs.mapM f = .error e) : ∃ x ∈ xs, f x = .error e := by
  induction xs with
  | nil => simp [pure_eq_error] at h
  | cons x rest ih =>
    simp only [List.mapM_cons, bind_eq_error, pure_eq_error, and_false, exists_false,
      or_false] at h
    rcases h with h | ⟨_, _, h⟩
    · exact ⟨x, List.mem_cons_self, h⟩
    · obtain ⟨y, hy, he⟩ := ih h
      exact ⟨y, List.mem_cons_of_mem _ hy, he⟩

theorem forM_cons (f : α → Except ε Unit) (x : α) (rest : List α) :
    (x :: rest).forM f = (f x >>= fun _ => rest.forM f) := rfl

/-- A check of every item passes if it passes for each. -/
theorem forM_eq_ok_iff {f : α → Except ε Unit} {xs : List α} :
    xs.forM f = .ok () ↔ ∀ x ∈ xs, f x = .ok () := by
  induction xs with
  | nil => simp [List.forM, pure_eq_ok]
  | cons x rest ih =>
    rw [forM_cons, check_bind_eq_ok, List.forall_mem_cons, ih]

/-- A check of every item fails as the first item does that does not pass. -/
theorem forM_eq_error_iff {f : α → Except ε Unit} {xs : List α} {e : ε} :
    xs.forM f = .error e ↔ ∃ before x after, xs = before ++ x :: after ∧
      (∀ y ∈ before, f y = .ok ()) ∧ f x = .error e := by
  constructor
  · intro h
    induction xs with
    | nil => simp [pure_eq_error] at h
    | cons x rest ih =>
      rw [forM_cons, bind_eq_error] at h
      rcases h with h | ⟨⟨⟩, hx, h⟩
      · exact ⟨[], x, rest, rfl, nofun, h⟩
      · obtain ⟨before, y, after, rfl, hbefore, hy⟩ := ih h
        exact ⟨x :: before, y, after, rfl, List.forall_mem_cons.mpr ⟨hx, hbefore⟩, hy⟩
  · rintro ⟨before, x, after, rfl, hbefore, hx⟩
    induction before with
    | nil => rw [List.nil_append, forM_cons, hx, error_bind]
    | cons y rest ih =>
      obtain ⟨hy, hrest⟩ := List.forall_mem_cons.mp hbefore
      rw [List.cons_append, forM_cons, hy, ok_bind]
      exact ih hrest

/-- An error of a check of every item is that of one of them. -/
theorem exists_error_of_forM {f : α → Except ε Unit} {xs : List α} {e : ε}
    (h : xs.forM f = .error e) : ∃ x ∈ xs, f x = .error e := by
  obtain ⟨before, x, after, rfl, -, hx⟩ := forM_eq_error_iff.mp h
  exact ⟨x, List.mem_append_right _ List.mem_cons_self, hx⟩

/-- What every step of a loop keeps holds at its end. -/
theorem foldlM_invariant {f : β → α → Except ε β} {motive : β → Prop} {xs : List α} {b b' : β}
    (h : xs.foldlM f b = .ok b') (start : motive b)
    (step : ∀ b x b', x ∈ xs → motive b → f b x = .ok b' → motive b') : motive b' := by
  induction xs generalizing b with
  | nil =>
    rw [List.foldlM_nil, pure_eq_ok] at h
    exact h ▸ start
  | cons x rest ih =>
    rw [List.foldlM_cons, bind_eq_ok] at h
    obtain ⟨next, hx, hrest⟩ := h
    exact ih hrest (step b x next List.mem_cons_self start hx)
      fun b y b' hy => step b y b' (List.mem_cons_of_mem _ hy)

/-! ## 3. Bounds on errors -/

/-- Every error of the computation has a property. -/
def FailsOnly (P : ε → Prop) (x : Except ε α) : Prop := ∀ e, x = .error e → P e

namespace FailsOnly

variable {P : ε → Prop} {x : Except ε α}

theorem ok {a : α} : FailsOnly P (.ok a : Except ε α) := fun _ h => absurd h (by simp)

theorem pure {a : α} : FailsOnly P (Pure.pure a : Except ε α) := ok

theorem of_eq_ok {a : α} (h : x = .ok a) : FailsOnly P x := h ▸ ok

theorem error {e : ε} (h : P e) : FailsOnly P (.error e : Except ε α) := by
  rintro _ ⟨⟩
  exact h

theorem mono {Q : ε → Prop} (hx : FailsOnly P x) (h : ∀ e, P e → Q e) : FailsOnly Q x :=
  fun e he => h e (hx e he)

/-- The second step is asked for only on a result of the first. -/
theorem bind {f : α → Except ε β} (hx : FailsOnly P x)
    (hf : ∀ a, x = .ok a → FailsOnly P (f a)) : FailsOnly P (x >>= f) := by
  intro e he
  rcases bind_eq_error.mp he with h | ⟨a, ha, h⟩
  · exact hx e h
  · exact hf a ha e h

theorem map {f : α → β} (hx : FailsOnly P x) : FailsOnly P (x.map f) := fun e he =>
  hx e (map_eq_error.mp he)

theorem mapM {f : α → Except ε β} {xs : List α} (h : ∀ a ∈ xs, FailsOnly P (f a)) :
    FailsOnly P (xs.mapM f) := by
  intro e he
  obtain ⟨a, ha, hfa⟩ := exists_error_of_mapM he
  exact h a ha e hfa

theorem forM {f : α → Except ε Unit} {xs : List α} (h : ∀ a ∈ xs, FailsOnly P (f a)) :
    FailsOnly P (xs.forM f) := by
  intro e he
  obtain ⟨a, ha, hfa⟩ := exists_error_of_forM he
  exact h a ha e hfa

theorem foldlM {f : β → α → Except ε β} {xs : List α} (h : ∀ b, ∀ a ∈ xs, FailsOnly P (f b a))
    (b : β) : FailsOnly P (xs.foldlM f b) := by
  induction xs generalizing b with
  | nil => exact pure
  | cons a rest ih =>
    rw [List.foldlM_cons]
    refine (h b a List.mem_cons_self).bind fun b' _ => ?_
    exact ih (fun b' a' ha' => h b' a' (List.mem_cons_of_mem _ ha')) b'

theorem option_mapM {f : α → Except ε β} {o : Option α} (h : ∀ a, o = some a → FailsOnly P (f a)) :
    FailsOnly P (o.mapM f) := by
  cases o with
  | none => exact pure
  | some a =>
    rw [Option.mapM_some]
    exact (h a rfl).map

end FailsOnly

/-! ## 4. Two computations -/

/-- The second computation comes out as the first, unless that fails with an error that has the
property. -/
def SameUnless (P : ε → Prop) (x y : Except ε α) : Prop := y = x ∨ ∃ e, x = .error e ∧ P e

namespace SameUnless

variable {P : ε → Prop} {x y : Except ε α}

theorem refl : SameUnless P x x := Or.inl rfl

theorem error {e : ε} (h : P e) : SameUnless P (.error e) y := Or.inr ⟨e, rfl, h⟩

theorem eq (h : SameUnless P x y) (hx : ∀ e, P e → x ≠ .error e) : y = x :=
  h.resolve_right fun ⟨e, he, hP⟩ => hx e hP he

/-- The second steps are compared only on a common result of the first. -/
theorem bind {f g : α → Except ε β} (hx : SameUnless P x y)
    (hf : ∀ a, x = .ok a → SameUnless P (f a) (g a)) : SameUnless P (x >>= f) (y >>= g) := by
  rcases hx with rfl | ⟨e, rfl, hP⟩
  · cases hy : y with
    | error e => exact refl
    | ok a => exact hf a hy
  · exact error hP

/-- One step after two that are compared. -/
theorem bind_same {f : α → Except ε β} (hx : SameUnless P x y) :
    SameUnless P (x >>= f) (y >>= f) :=
  hx.bind fun _ _ => refl

theorem mapM {f g : α → Except ε β} {xs : List α} (h : ∀ a ∈ xs, SameUnless P (f a) (g a)) :
    SameUnless P (xs.mapM f) (xs.mapM g) := by
  induction xs with
  | nil => exact refl
  | cons a rest ih =>
    rw [List.mapM_cons, List.mapM_cons]
    refine (h a List.mem_cons_self).bind fun _ _ => ?_
    exact (ih fun b hb => h b (List.mem_cons_of_mem _ hb)).bind_same

theorem map {f : α → β} (h : SameUnless P x y) : SameUnless P (x.map f) (y.map f) := by
  rcases h with rfl | ⟨e, rfl, hP⟩
  · exact refl
  · exact error hP

theorem foldlM {f g : β → α → Except ε β} {xs : List α}
    (h : ∀ b, ∀ a ∈ xs, SameUnless P (f b a) (g b a)) (b : β) :
    SameUnless P (xs.foldlM f b) (xs.foldlM g b) := by
  induction xs generalizing b with
  | nil => exact refl
  | cons a rest ih =>
    rw [List.foldlM_cons, List.foldlM_cons]
    refine (h b a List.mem_cons_self).bind fun b' _ => ?_
    exact ih (fun b' a' ha' => h b' a' (List.mem_cons_of_mem _ ha')) b'

theorem option_mapM {f g : α → Except ε β} {o : Option α}
    (h : ∀ a, o = some a → SameUnless P (f a) (g a)) : SameUnless P (o.mapM f) (o.mapM g) := by
  cases o with
  | none => exact refl
  | some a =>
    rw [Option.mapM_some, Option.mapM_some]
    exact (h a rfl).map

/-- One item is replaced by another. -/
theorem mapM_at {f : α → Except ε β} {a b : α} (h : SameUnless P (f a) (f b))
    (before after : List α) :
    SameUnless P ((before ++ a :: after).mapM f) ((before ++ b :: after).mapM f) := by
  rw [List.mapM_append, List.mapM_append, List.mapM_cons, List.mapM_cons]
  refine refl.bind fun _ _ => ?_
  exact h.bind_same.bind_same

theorem foldlM_at {f : β → α → Except ε β} {a b : α} (h : ∀ acc, SameUnless P (f acc a) (f acc b))
    (before after : List α) (acc : β) :
    SameUnless P ((before ++ a :: after).foldlM f acc) ((before ++ b :: after).foldlM f acc) := by
  rw [List.foldlM_append, List.foldlM_append]
  refine refl.bind fun next _ => ?_
  rw [List.foldlM_cons, List.foldlM_cons]
  exact (h next).bind_same

end SameUnless

/-- The second computation comes out as the first, if that has a result. -/
abbrev Keeps (x y : Except ε α) : Prop := SameUnless (fun _ => True) x y

theorem keeps_iff {x y : Except ε α} : Keeps x y ↔ ∀ a, x = .ok a → y = .ok a := by
  constructor
  · rintro (rfl | ⟨e, rfl, -⟩) a hx
    · exact hx
    · cases hx
  · intro h
    cases x with
    | ok a => exact Or.inl (h a rfl)
    | error e => exact .error trivial

theorem Keeps.eq_ok {x y : Except ε α} {a : α} (h : Keeps x y) (hx : x = .ok a) : y = .ok a :=
  keeps_iff.mp h a hx

/-! ## 5. Two computations up to relations -/

/-- Both computations have results that `R` relates, or both fail with errors that `E` relates. -/
inductive Corresponds {γ : Type} (E : ε → ε → Prop) (R : α → γ → Prop) :
    Except ε α → Except ε γ → Prop
  | ok {a : α} {c : γ} (h : R a c) : Corresponds E R (.ok a) (.ok c)
  | error {e e' : ε} (h : E e e') : Corresponds E R (.error e) (.error e')

namespace Corresponds

variable {E : ε → ε → Prop} {R : α → α → Prop} {S : β → β → Prop} {x y : Except ε α}

theorem refl (hE : ∀ e, E e e) (hR : ∀ a, R a a) (x : Except ε α) : Corresponds E R x x := by
  cases x with
  | ok a => exact .ok (hR a)
  | error e => exact .error (hE e)

theorem trans {z : Except ε α} (hE : ∀ e e' e'', E e e' → E e' e'' → E e e'')
    (hR : ∀ a b c, R a b → R b c → R a c) (hxy : Corresponds E R x y) (hyz : Corresponds E R y z) :
    Corresponds E R x z := by
  cases hxy with
  | ok h =>
    cases hyz with
    | ok h' => exact .ok (hR _ _ _ h h')
  | error h =>
    cases hyz with
    | error h' => exact .error (hE _ _ _ h h')

/-- The second steps are compared on results that are related. -/
theorem bind {f g : α → Except ε β} (h : Corresponds E R x y)
    (hf : ∀ a b, R a b → Corresponds E S (f a) (g b)) : Corresponds E S (x >>= f) (y >>= g) := by
  cases h with
  | ok h => exact hf _ _ h
  | error h => exact .error h

theorem map {f g : α → β} (h : Corresponds E R x y) (hf : ∀ a b, R a b → S (f a) (g b)) :
    Corresponds E S (x.map f) (y.map g) := by
  cases h with
  | ok h => exact .ok (hf _ _ h)
  | error h => exact .error h

/-- A loop over the same items, from accumulators that are related. -/
theorem foldlM {γ : Type} {f g : β → γ → Except ε β} {xs : List γ}
    (h : ∀ x ∈ xs, ∀ b b', S b b' → Corresponds E S (f b x) (g b' x)) {b b' : β} (hb : S b b') :
    Corresponds E S (xs.foldlM f b) (xs.foldlM g b') := by
  induction xs generalizing b b' with
  | nil => exact .ok hb
  | cons x rest ih =>
    rw [List.foldlM_cons, List.foldlM_cons]
    refine (h x List.mem_cons_self b b' hb).bind fun c c' hc => ?_
    exact ih (fun y hy => h y (List.mem_cons_of_mem _ hy)) hc

/-- One item is replaced by another. -/
theorem foldlM_at {γ : Type} {f : β → γ → Except ε β} {v w : γ} {before after : List γ}
    (hE : ∀ e, E e e) (h : ∀ b, Corresponds E S (f b v) (f b w))
    (hafter : ∀ x ∈ after, ∀ b b', S b b' → Corresponds E S (f b x) (f b' x)) (b : β) :
    Corresponds E S ((before ++ v :: after).foldlM f b) ((before ++ w :: after).foldlM f b) := by
  rw [List.foldlM_append, List.foldlM_append]
  refine (Corresponds.refl (R := Eq) hE (fun _ => rfl) _).bind fun c c' hc => ?_
  subst hc
  rw [List.foldlM_cons, List.foldlM_cons]
  exact (h c).bind fun d d' hd => foldlM hafter hd

/-- What the results of the items keep, the results of all keep if one item is replaced. -/
theorem mapM_at {γ δ : Type} {f : γ → Except ε β} {k : β → δ} {v w : γ} (hE : ∀ e, E e e)
    (h : Corresponds E (fun a b => k a = k b) (f v) (f w)) (before after : List γ) :
    Corresponds E (fun as bs => as.map k = bs.map k) ((before ++ v :: after).mapM f)
      ((before ++ w :: after).mapM f) := by
  rw [List.mapM_append, List.mapM_append, List.mapM_cons, List.mapM_cons]
  refine (Corresponds.refl (R := Eq) hE (fun _ => rfl) _).bind fun as bs has => ?_
  subst has
  refine Corresponds.bind (R := fun bs cs => bs.map k = cs.map k) ?_ fun bs cs hbs => ?_
  · refine h.bind fun b c hb => ?_
    refine (Corresponds.refl (R := Eq) hE (fun _ => rfl) _).bind fun rest rest' hrest => ?_
    subst hrest
    exact .ok (by rw [List.map_cons, List.map_cons, hb])
  · exact .ok (by rw [List.map_append, List.map_append, hbs])

end Corresponds

end GraphQuery
