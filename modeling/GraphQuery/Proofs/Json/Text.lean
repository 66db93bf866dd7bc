/-
# A document is determined by its text

The text of a document can be taken off the front of any text in which a comma, a closing bracket
or nothing follows it, and both the document and the remainder are determined
(**`text_append_injective`**).  The kinds of documents are told apart by their first character, and
each kind carries its own end:

* a number, by the first character that no number holds;
* a string, by its closing quote, since `stringTail?` reads back what `quote` writes;
* an array or object, by its closing bracket.

Reals have to be finite, since all others are written `null`.  A whole number and a real never share
a text, since a real holds a point or an `e`.

Values are written through their documents, so values without infinities and NaN are determined by
their texts (**`Value.text_injective`**), the zeros kept apart.
-/
import GraphQuery.Proofs.Decimal.Writing
import GraphQuery.Json.Reader
import GraphQuery.Value.Json
import GraphQuery.Proofs.Entries

namespace GraphQuery

namespace Json

/-! ## 1. Strings -/

theorem hexValue?_hexDigit : ∀ n : Fin 16, hexValue? (hexDigit n.val) = some n.val := by decide

theorem stringTail?_plain {c : Char} (hquote : c ≠ '"') (hslash : c ≠ '\\')
    (hcontrol : ¬ c.toNat < 0x20) (acc rest : List Char) :
    stringTail? acc (c :: rest) = stringTail? (c :: acc) rest := by
  rw [stringTail?]
  · rw [if_neg hcontrol]
  · exact hquote
  · rintro a b c d rest rfl
    exact absurd rfl hslash
  · rintro c rest rfl
    exact absurd rfl hslash

theorem stringTail?_short {c e : Char} (hc : c ≠ 'u') (h : shortEscape? c = some e)
    (acc rest : List Char) :
    stringTail? acc ('\\' :: c :: rest) = stringTail? (e :: acc) rest := by
  rw [stringTail?]
  · rw [h]
  · rintro a b c d rest rfl
    exact absurd rfl hc

theorem stringTail?_unit {a b c d : Char} {u : Nat} (h : codeUnit? a b c d = some u)
    (hu : u < 0xD800) (acc rest : List Char) :
    stringTail? acc ('\\' :: 'u' :: a :: b :: c :: d :: rest) =
      stringTail? (Char.ofNat u :: acc) rest := by
  have hhigh : isHighHalf u = false := by simp only [isHighHalf, decide_eq_false_iff_not]; omega
  have hlow : isLowHalf u = false := by simp only [isLowHalf, decide_eq_false_iff_not]; omega
  rw [stringTail?, h]
  simp only [hhigh, hlow, Bool.false_eq_true, if_false]

/-- The code point of a control character has the two digits that are written. -/
theorem codeUnit?_control {n : Nat} (h : n < 0x20) :
    codeUnit? '0' '0' (hexDigit (n / 16)) (hexDigit (n % 16)) = some n := by
  have hhigh := hexValue?_hexDigit ⟨n / 16, by omega⟩
  have hlow := hexValue?_hexDigit ⟨n % 16, by omega⟩
  simp only at hhigh hlow
  have hzero : hexValue? '0' = some 0 := by decide
  simp only [codeUnit?, hzero, hhigh, hlow, Option.bind_eq_bind, Option.bind_some, Option.pure_def,
    Option.some.injEq]
  omega

/-- **The reader takes an escaped character for the character.** -/
theorem stringTail?_escapeChar (c : Char) (acc rest : List Char) :
    stringTail? acc (escapeChar c ++ rest) = stringTail? (c :: acc) rest := by
  by_cases hshort : c ∈ ['"', '\\', '\n', '\r', '\t', '\x08', '\x0c']
  · -- a letter stands for the character
    simp only [List.mem_cons, List.not_mem_nil, or_false] at hshort
    rcases hshort with rfl | rfl | rfl | rfl | rfl | rfl | rfl <;>
      exact stringTail?_short (by decide) rfl acc rest
  · simp only [List.mem_cons, List.not_mem_nil, or_false, not_or] at hshort
    obtain ⟨hquote, hslash, hn, hr, ht, hb, hf⟩ := hshort
    rw [escapeChar, if_neg hquote, if_neg hslash, if_neg hn, if_neg hr, if_neg ht, if_neg hb,
      if_neg hf]
    by_cases hcontrol : c.toNat < 0x20
    · have hunit := stringTail?_unit (codeUnit?_control hcontrol) (by omega) acc rest
      rw [Char.ofNat_toNat] at hunit
      rw [if_pos hcontrol]
      exact hunit
    · rw [if_neg hcontrol]
      exact stringTail?_plain hquote hslash hcontrol acc rest

theorem stringTail?_flatMap (cs acc rest : List Char) :
    stringTail? acc (cs.flatMap escapeChar ++ '"' :: rest) =
      some (String.ofList (acc.reverse ++ cs), rest) := by
  induction cs generalizing acc with
  | nil => rw [List.flatMap_nil, List.nil_append, stringTail?, List.append_nil]
  | cons c cs ih =>
    rw [List.flatMap_cons, List.append_assoc, stringTail?_escapeChar, ih, List.reverse_cons,
      List.append_assoc, List.singleton_append]

theorem toList_quote (s : String) :
    (quote s).toList = '"' :: s.toList.flatMap escapeChar ++ ['"'] :=
  String.toList_ofList

/-- **The reader takes a quoted string for the string**, and leaves what follows it. -/
theorem stringTail?_quote (s : String) (rest : List Char) :
    ∃ tail, (quote s).toList ++ rest = '"' :: tail ∧ stringTail? [] tail = some (s, rest) := by
  refine ⟨s.toList.flatMap escapeChar ++ '"' :: rest, ?_, ?_⟩
  · rw [toList_quote, List.cons_append, List.cons_append, List.append_assoc, List.singleton_append]
  · rw [stringTail?_flatMap, List.reverse_nil, List.nil_append, String.ofList_toList]

theorem quote_append_injective {s s' : String} {r r' : List Char}
    (h : (quote s).toList ++ r = (quote s').toList ++ r') : s = s' ∧ r = r' := by
  obtain ⟨tail, htail, hread⟩ := stringTail?_quote s r
  obtain ⟨tail', htail', hread'⟩ := stringTail?_quote s' r'
  rw [htail, htail', List.cons.injEq] at h
  rw [h.2, hread', Option.some.injEq, Prod.mk.injEq] at hread
  exact ⟨hread.1.symm, hread.2.symm⟩

/-! ## 2. What follows a document -/

/-- What can follow a document in a text: nothing, a comma or a closing bracket. -/
def Ends (rest : List Char) : Prop := ∀ c tail, rest = c :: tail → c = ',' ∨ c = ']' ∨ c = '\x7d'

theorem Ends.nil : Ends [] := nofun

theorem Ends.cons {c : Char} {tail : List Char} (h : c = ',' ∨ c = ']' ∨ c = '\x7d') :
    Ends (c :: tail) := by
  intro c' tail' heq
  rw [← (List.cons.inj heq).1]
  exact h

/-- A written number is ended by the first character that no number holds. -/
theorem numeral_append_injective {cs cs' r r' : List Char}
    (hcs : ∀ c ∈ cs, Decimal.isNumeral c = true) (hcs' : ∀ c ∈ cs', Decimal.isNumeral c = true)
    (hr : Ends r) (hr' : Ends r') (h : cs ++ r = cs' ++ r') : cs = cs' ∧ r = r' := by
  have hend : ∀ {cs r r' : List Char} {c : Char}, Decimal.isNumeral c = true → Ends r →
      r ≠ c :: cs ++ r' := by
    intro cs r r' c hc hr heq
    rcases hr c (cs ++ r') heq with rfl | rfl | rfl <;> exact absurd hc (by decide)
  induction cs generalizing cs' with
  | nil => cases cs' with
    | nil => exact ⟨rfl, h⟩
    | cons c' cs' => exact absurd h (hend (hcs' c' List.mem_cons_self) hr)
  | cons c cs ih => cases cs' with
    | nil => exact absurd h.symm (hend (hcs c List.mem_cons_self) hr')
    | cons c' cs' =>
      obtain ⟨rfl, htail⟩ := List.cons.inj h
      have hcs := fun c hc => hcs c (List.mem_cons_of_mem _ hc)
      have hcs' := fun c hc => hcs' c (List.mem_cons_of_mem _ hc)
      obtain ⟨rfl, rfl⟩ := ih hcs hcs' htail
      exact ⟨rfl, rfl⟩

/-! ## 3. Numbers -/

theorem toList_toString_int (i : Int) :
    (toString i).toList =
      if i < 0 then '-' :: Nat.toDigits 10 i.natAbs else Nat.toDigits 10 i.natAbs := by
  cases i with
  | ofNat n =>
    have hnonneg : ¬ Int.ofNat n < 0 := Int.not_lt.mpr (Int.natCast_nonneg n)
    rw [if_neg hnonneg]
    exact String.toList_ofList
  | negSucc n =>
    rw [if_pos (Int.negSucc_lt_zero n), show toString (Int.negSucc n) = "-" ++ (n + 1).repr from rfl,
      String.toList_append, Nat.toList_repr]
    rfl

theorem mem_toString_int {i : Int} {c : Char} (h : c ∈ (toString i).toList) :
    c = '-' ∨ c.isDigit = true := by
  rw [toList_toString_int] at h
  have hdigits : c ∈ Nat.toDigits 10 i.natAbs → c.isDigit = true :=
    Nat.isDigit_of_mem_toDigits (by decide) (by decide)
  split at h
  · exact (List.mem_cons.mp h).imp_right hdigits
  · exact Or.inr (hdigits h)

/-- Only a negative number is written with a sign. -/
theorem toString_int_injective {i i' : Int} (h : (toString i).toList = (toString i').toList) :
    i = i' := by
  have hsign : ∀ {m n : Nat}, '-' :: Nat.toDigits 10 m ≠ Nat.toDigits 10 n := by
    intro m n heq
    have hmem : '-' ∈ Nat.toDigits 10 n := heq ▸ List.mem_cons_self
    exact absurd (Nat.isDigit_of_mem_toDigits (by decide) (by decide) hmem) (by decide)
  rw [toList_toString_int, toList_toString_int] at h
  split at h <;> split at h
  · have := Decimal.toDigits_injective (List.cons.inj h).2
    omega
  · exact absurd h hsign
  · exact absurd h.symm hsign
  · have := Decimal.toDigits_injective h
    omega

theorem toList_realText {x : Binary64} (hx : x.isFinite = true) :
    (realText x).toList =
      if x.negative then '-' :: x.shortestDecimal.body realLayout
      else x.shortestDecimal.body realLayout := by
  rw [realText_of_isFinite hx, Decimal.toList_write]

theorem realText_spec {x : Binary64} (hx : x.isFinite = true) :
    (∀ c ∈ (realText x).toList, Decimal.isNumeral c = true) ∧
      ('.' ∈ (realText x).toList ∨ 'e' ∈ (realText x).toList) := by
  obtain ⟨-, hmem, hmark⟩ :=
    Decimal.body_spec (k := 324) realLayout (x.shortestDecimal_exponent)
  rw [toList_realText hx]
  split
  · refine ⟨fun c hc => ?_, hmark.imp (List.mem_cons_of_mem _) (List.mem_cons_of_mem _)⟩
    rcases List.mem_cons.mp hc with rfl | hc
    · decide
    · exact hmem c hc
  · exact ⟨hmem, hmark⟩

/-- A real is never written as a whole number is. -/
theorem toString_int_ne_realText {i : Int} {x : Binary64} (hx : x.isFinite = true) :
    (toString i).toList ≠ (realText x).toList := by
  intro h
  have hmark := (realText_spec hx).2
  rw [← h] at hmark
  rcases hmark with hpoint | he
  · exact absurd (mem_toString_int hpoint) (by decide)
  · exact absurd (mem_toString_int he) (by decide)

/-! ## 4. How a document starts -/

/-- No infinity and no NaN stands in the document. -/
inductive AllFinite : Json → Prop where
  | null : AllFinite null
  | bool {b : Bool} : AllFinite (bool b)
  | integer {i : Int} : AllFinite (integer i)
  | real {x : Binary64} (h : x.isFinite = true) : AllFinite (real x)
  | string {s : String} : AllFinite (string s)
  | array {items : List Json} (h : ∀ j ∈ items, AllFinite j) : AllFinite (array items)
  | object {entries : List (String × Json)} (h : ∀ e ∈ entries, AllFinite e.2) :
      AllFinite (object entries)

/-- The kind of a document, both kinds of numbers taken together. -/
def kind : Json → Kind
  | null => .null
  | bool _ => .bool
  | integer _ | real _ => .int
  | string _ => .string
  | array _ => .list
  | object _ => .map

/-- The kind of the documents that start with a character. -/
def kindOfHead? (c : Char) : Option Kind :=
  if c = 'n' then some .null
  else if c = 't' ∨ c = 'f' then some .bool
  else if c = '"' then some .string
  else if c = '[' then some .list
  else if c = '\x7b' then some .map
  else if c = '-' ∨ c.isDigit then some .int
  else none

theorem kindOfHead?_of_isDigit {c : Char} (h : c.isDigit = true) : kindOfHead? c = some .int := by
  have hne : ∀ c', c'.isDigit = false → c ≠ c' := by
    rintro c' hc' rfl
    rw [h] at hc'
    exact Bool.noConfusion hc'
  rw [kindOfHead?, if_neg (hne _ (by decide)),
    if_neg (not_or.mpr ⟨hne _ (by decide), hne _ (by decide)⟩), if_neg (hne _ (by decide)),
    if_neg (hne _ (by decide)), if_neg (hne _ (by decide)), if_pos (Or.inr h)]

/-- **The first character of a text tells the kind of the document.** -/
theorem toList_text_head {j : Json} (h : j.AllFinite) :
    ∃ c rest, j.text.toList = c :: rest ∧ kindOfHead? c = some j.kind := by
  cases h with
  | null => exact ⟨'n', _, rfl, rfl⟩
  | @bool b => cases b <;> exact ⟨_, _, rfl, rfl⟩
  | @integer i =>
    obtain ⟨c, rest, hdigits⟩ := List.exists_cons_of_ne_nil
      (Nat.toDigits_ne_nil (n := i.natAbs) (b := 10))
    have hc : c.isDigit = true := Nat.isDigit_of_mem_toDigits (b := 10) (n := i.natAbs) (by decide)
      (by decide) (hdigits ▸ List.mem_cons_self)
    rw [text, toList_toString_int, hdigits]
    split
    · exact ⟨'-', _, rfl, rfl⟩
    · exact ⟨c, _, rfl, kindOfHead?_of_isDigit hc⟩
  | @real x hx =>
    obtain ⟨⟨c, rest, hbody, hc⟩, -⟩ :=
      Decimal.body_spec (k := 324) realLayout (x.shortestDecimal_exponent)
    rw [text, toList_realText hx, hbody]
    split
    · exact ⟨'-', _, rfl, rfl⟩
    · exact ⟨c, _, rfl, kindOfHead?_of_isDigit hc⟩
  | string => exact ⟨'"', _, by rw [text, toList_quote]; rfl, rfl⟩
  | array => exact ⟨'[', _, by rw [text, String.toList_append, String.toList_append]; rfl, rfl⟩
  | object =>
    exact ⟨'\x7b', _, by rw [text, String.toList_append, String.toList_append]; rfl, rfl⟩

theorem kind_eq_of_append {j j' : Json} (h : j.AllFinite) (h' : j'.AllFinite) {r r' : List Char}
    (heq : j.text.toList ++ r = j'.text.toList ++ r') : j.kind = j'.kind := by
  obtain ⟨c, rest, htext, hkind⟩ := toList_text_head h
  obtain ⟨c', rest', htext', hkind'⟩ := toList_text_head h'
  rw [htext, htext'] at heq
  rw [(List.cons.inj heq).1, hkind'] at hkind
  exact (Option.some.inj hkind).symm

/-! ## 5. Items and entries -/

/-- What stands after the first part of a list: a comma before each part, and the closing
bracket. -/
theorem flatMap_append_injective {α : Type} {f : α → List Char} {close : Char}
    (hclose : close = ']' ∨ close = '\x7d') {as bs : List α}
    (hparts : ∀ a ∈ as, ∀ b ∈ bs, ∀ r r', Ends r → Ends r' → f a ++ r = f b ++ r' → a = b ∧ r = r')
    {r r' : List Char}
    (h : as.flatMap (fun a => ',' :: f a) ++ close :: r =
      bs.flatMap (fun b => ',' :: f b) ++ close :: r') : as = bs ∧ r = r' := by
  have hends : ∀ (cs : List α) (r : List Char),
      Ends (cs.flatMap (fun c => ',' :: f c) ++ close :: r) := by
    intro cs r
    cases cs with
    | nil => exact .cons (Or.inr hclose)
    | cons c cs => exact .cons (Or.inl rfl)
  have hcomma : close ≠ ',' := by rcases hclose with rfl | rfl <;> decide
  induction as generalizing bs with
  | nil => cases bs with
    | nil => exact ⟨rfl, (List.cons.inj h).2⟩
    | cons b bs => exact absurd (List.cons.inj h).1 hcomma
  | cons a as ih => cases bs with
    | nil => exact absurd (List.cons.inj h).1.symm hcomma
    | cons b bs =>
      rw [List.flatMap_cons, List.flatMap_cons, List.append_assoc, List.append_assoc,
        List.cons_append, List.cons_append, List.cons.injEq] at h
      obtain ⟨rfl, htail⟩ := hparts a List.mem_cons_self b List.mem_cons_self _ _
        (hends as r) (hends bs r') h.2
      obtain ⟨rfl, rfl⟩ := ih (fun a ha b hb => hparts a (List.mem_cons_of_mem _ ha) b
        (List.mem_cons_of_mem _ hb)) htail
      exact ⟨rfl, rfl⟩

theorem intercalate_comma_cons {α : Type} (f : α → List Char) (a : α) (as : List α) :
    List.intercalate [','] ((a :: as).map f) = f a ++ as.flatMap fun a => ',' :: f a := by
  induction as generalizing a with
  | nil => simp [List.intercalate]
  | cons b bs ih =>
    rw [List.map_cons, List.map_cons, List.intercalate_cons_cons, ← List.map_cons, ih,
      List.flatMap_cons, List.append_assoc, List.singleton_append, List.cons_append]

/-- **The parts between brackets are determined by the text**, if each part is and none starts with
the closing bracket. -/
theorem intercalate_append_injective {α : Type} {f : α → List Char} {close : Char}
    (hclose : close = ']' ∨ close = '\x7d') {as bs : List α}
    (hparts : ∀ a ∈ as, ∀ b ∈ bs, ∀ r r', Ends r → Ends r' → f a ++ r = f b ++ r' → a = b ∧ r = r')
    (has : ∀ a ∈ as, ∃ c rest, f a = c :: rest ∧ c ≠ close)
    (hbs : ∀ b ∈ bs, ∃ c rest, f b = c :: rest ∧ c ≠ close) {r r' : List Char}
    (h : List.intercalate [','] (as.map f) ++ close :: r =
      List.intercalate [','] (bs.map f) ++ close :: r') : as = bs ∧ r = r' := by
  cases as with
  | nil => cases bs with
    | nil => exact ⟨rfl, (List.cons.inj h).2⟩
    | cons b bs =>
      obtain ⟨c, rest, hb, hc⟩ := hbs b List.mem_cons_self
      rw [intercalate_comma_cons, hb] at h
      exact absurd (List.cons.inj h).1.symm hc
  | cons a as => cases bs with
    | nil =>
      obtain ⟨c, rest, ha, hc⟩ := has a List.mem_cons_self
      rw [intercalate_comma_cons, ha] at h
      exact absurd (List.cons.inj h).1 hc
    | cons b bs =>
      -- a comma in front of the first part makes it like the others
      refine flatMap_append_injective hclose hparts ?_
      rw [intercalate_comma_cons, intercalate_comma_cons] at h
      rw [List.flatMap_cons, List.flatMap_cons, List.cons_append, List.cons_append, List.cons_append,
        List.cons_append, h]

/-- The characters of an entry. -/
def entryChars (e : String × Json) : List Char := (quote e.1).toList ++ ':' :: e.2.text.toList

theorem map_itemTexts (items : List Json) :
    (itemTexts items).map String.toList = items.map fun j => j.text.toList := by
  induction items with
  | nil => rfl
  | cons j rest ih => rw [itemTexts, List.map_cons, ih, List.map_cons]

theorem map_entryTexts (entries : List (String × Json)) :
    (entryTexts entries).map String.toList = entries.map entryChars := by
  induction entries with
  | nil => rfl
  | cons e rest ih =>
    obtain ⟨k, j⟩ := e
    rw [entryTexts, List.map_cons, ih, List.map_cons, String.toList_append, String.toList_append,
      List.append_assoc]
    rfl

theorem toList_text_array (items : List Json) (r : List Char) :
    (array items).text.toList ++ r =
      '[' :: (List.intercalate [','] (items.map fun j => j.text.toList) ++ ']' :: r) := by
  rw [text, String.toList_append, String.toList_append, String.toList_intercalate, map_itemTexts,
    List.append_assoc, List.append_assoc]
  rfl

theorem toList_text_object (entries : List (String × Json)) (r : List Char) :
    (object entries).text.toList ++ r =
      '\x7b' :: (List.intercalate [','] (entries.map entryChars) ++ '\x7d' :: r) := by
  rw [text, String.toList_append, String.toList_append, String.toList_intercalate, map_entryTexts,
    List.append_assoc, List.append_assoc]
  rfl

/-! ## 6. Documents -/

theorem number_append_injective {j j' : Json} (h : j.AllFinite) (h' : j'.AllFinite)
    (hj : j.kind = .int) (hj' : j'.kind = .int) {r r' : List Char} (hr : Ends r) (hr' : Ends r')
    (heq : j.text.toList ++ r = j'.text.toList ++ r') : j = j' ∧ r = r' := by
  have hnumeral : ∀ {j : Json}, j.AllFinite → j.kind = .int →
      ∀ c ∈ j.text.toList, Decimal.isNumeral c = true := by
    intro j h hj
    cases h with
    | @integer i =>
      intro c hc
      rcases mem_toString_int hc with rfl | hc
      · decide
      · exact Decimal.isNumeral_of_isDigit hc
    | real hx => exact (realText_spec hx).1
    | _ => cases hj
  obtain ⟨htext, rfl⟩ := numeral_append_injective (hnumeral h hj) (hnumeral h' hj') hr hr' heq
  refine ⟨?_, rfl⟩
  cases h with
  | @integer i => cases h' with
    | @integer i' => exact congrArg _ (toString_int_injective htext)
    | real hx => exact absurd htext (toString_int_ne_realText hx)
    | _ => cases hj'
  | real hx => cases h' with
    | integer => exact absurd htext.symm (toString_int_ne_realText hx)
    | real hx' => exact congrArg _ (realText_injective hx hx' (String.toList_inj.mp htext))
    | _ => cases hj'
  | _ => cases hj

/-- **A finite document and what follows it are determined by the text.** -/
theorem text_append_injective {j j' : Json} (h : j.AllFinite) (h' : j'.AllFinite)
    {r r' : List Char} (hr : Ends r) (hr' : Ends r')
    (heq : j.text.toList ++ r = j'.text.toList ++ r') : j = j' ∧ r = r' := by
  have hkind := kind_eq_of_append h h' heq
  induction h generalizing j' r r' with
  | null => cases h' with
    | null => exact ⟨rfl, List.append_cancel_left heq⟩
    | _ => cases hkind
  | @bool b => cases h' with
    | @bool b' =>
      cases b <;> cases b'
      · exact ⟨rfl, List.append_cancel_left heq⟩
      · exact absurd (List.cons.inj heq).1 (by decide)
      · exact absurd (List.cons.inj heq).1 (by decide)
      · exact ⟨rfl, List.append_cancel_left heq⟩
    | _ => cases hkind
  | integer => exact number_append_injective .integer h' rfl hkind.symm hr hr' heq
  | real hx => exact number_append_injective (.real hx) h' rfl hkind.symm hr hr' heq
  | string => cases h' with
    | string =>
      obtain ⟨rfl, rfl⟩ := quote_append_injective heq
      exact ⟨rfl, rfl⟩
    | _ => cases hkind
  | @array items h ih => cases h' with
    | @array items' h' =>
      rw [toList_text_array, toList_text_array, List.cons.injEq] at heq
      have hstart : ∀ {j : Json}, j.AllFinite → ∃ c rest, j.text.toList = c :: rest ∧ c ≠ ']' := by
        intro j hj
        obtain ⟨c, rest, htext, hc⟩ := toList_text_head hj
        exact ⟨c, rest, htext, fun he => absurd (he ▸ hc) (by simp [kindOfHead?])⟩
      obtain ⟨rfl, rfl⟩ := intercalate_append_injective (Or.inl rfl)
        (fun a ha b hb r r' hr hr' heq =>
          ih a ha (h' b hb) hr hr' heq (kind_eq_of_append (h a ha) (h' b hb) heq))
        (fun a ha => hstart (h a ha)) (fun b hb => hstart (h' b hb)) heq.2
      exact ⟨rfl, rfl⟩
    | _ => cases hkind
  | @object entries h ih => cases h' with
    | @object entries' h' =>
      rw [toList_text_object, toList_text_object, List.cons.injEq] at heq
      have hstart : ∀ e : String × Json, ∃ c rest, entryChars e = c :: rest ∧ c ≠ '\x7d' :=
        fun e => ⟨'"', _, by rw [entryChars, toList_quote]; rfl, by decide⟩
      obtain ⟨rfl, rfl⟩ := intercalate_append_injective (Or.inr rfl)
        (fun a ha b hb r r' hr hr' heq => by
          unfold entryChars at heq
          rw [List.append_assoc, List.append_assoc] at heq
          obtain ⟨hkey, heq⟩ := quote_append_injective heq
          have heq := (List.cons.inj heq).2
          obtain ⟨hvalue, hrest⟩ :=
            ih a ha (h' b hb) hr hr' heq (kind_eq_of_append (h a ha) (h' b hb) heq)
          exact ⟨Prod.ext hkey hvalue, hrest⟩)
        (fun a _ => hstart a) (fun b _ => hstart b) heq.2
      exact ⟨rfl, rfl⟩
    | _ => cases hkind

/-- **Finite documents with one text are one document.** -/
theorem text_injective {j j' : Json} (h : j.AllFinite) (h' : j'.AllFinite)
    (heq : j.text = j'.text) : j = j' :=
  (text_append_injective h h' Ends.nil Ends.nil
    (congrArg (fun s => s.toList ++ []) heq)).1

end Json

/-! ## 7. Values -/

namespace Value

/-- No infinity and no NaN stands in the value. -/
inductive AllFinite : Value → Prop where
  | null : AllFinite null
  | bool {b : Bool} : AllFinite (bool b)
  | int {i : Int64} : AllFinite (int i)
  | float {x : Binary64} (h : x.isFinite = true) : AllFinite (float x)
  | string {s : String} : AllFinite (string s)
  | list {items : List Value} (h : ∀ v ∈ items, AllFinite v) : AllFinite (list items)
  | map {entries : List (String × Value)} (h : ∀ e ∈ entries, AllFinite e.2) :
      AllFinite (map entries)

theorem itemsToJson_eq_map (items : List Value) : itemsToJson items = items.map toJson :=
  eq_map_of_cons rfl (fun _ _ => rfl) items

theorem entriesToJson_eq_mapValues (entries : List (String × Value)) :
    entriesToJson entries = Keyed.mapValues toJson entries :=
  eq_map_of_cons rfl (fun _ _ => rfl) entries

theorem AllFinite.toJson {v : Value} (h : v.AllFinite) : v.toJson.AllFinite := by
  induction h with
  | null => exact .null
  | bool => exact .bool
  | int => exact .integer
  | float hx => rw [Value.toJson, if_pos hx]; exact .real hx
  | string => exact .string
  | list _ ih =>
    rw [Value.toJson, itemsToJson_eq_map]
    refine .array fun j hj => ?_
    obtain ⟨v, hv, rfl⟩ := List.mem_map.mp hj
    exact ih v hv
  | map _ ih =>
    rw [Value.toJson, entriesToJson_eq_mapValues]
    refine .object fun e he => ?_
    obtain ⟨e', he', rfl⟩ := List.mem_map.mp he
    exact ih e' he'

end Value

/-- A function that is injective on the items of two lists tells the lists apart. -/
theorem eq_of_map_eq_map {α β : Type} {f : α → β} {as bs : List α}
    (hinj : ∀ a ∈ as, ∀ b ∈ bs, f a = f b → a = b) (h : as.map f = bs.map f) : as = bs := by
  induction as generalizing bs with
  | nil => exact (List.map_eq_nil_iff.mp h.symm).symm
  | cons a as ih => cases bs with
    | nil => cases h
    | cons b bs =>
      obtain ⟨hhead, htail⟩ := List.cons.inj h
      rw [hinj a List.mem_cons_self b List.mem_cons_self hhead,
        ih (fun a ha b hb => hinj a (List.mem_cons_of_mem _ ha) b (List.mem_cons_of_mem _ hb)) htail]

namespace Value

theorem toJson_injective {v w : Value} (hv : v.AllFinite) (hw : w.AllFinite)
    (h : v.toJson = w.toJson) : v = w := by
  have hfloat : ∀ {x : Binary64}, x.isFinite = true → (float x).toJson = .real x :=
    fun hx => if_pos hx
  induction hv generalizing w with
  | null => cases hw <;> simp_all [toJson]
  | bool => cases hw <;> simp_all [toJson]
  | int => cases hw <;> simp_all [toJson, Int64.toInt_inj]
  | float => cases hw <;> simp_all [toJson]
  | string => cases hw <;> simp_all [toJson]
  | list _ ih => cases hw with
    | list hw =>
      rw [toJson, toJson, Json.array.injEq, itemsToJson_eq_map, itemsToJson_eq_map] at h
      exact congrArg _ (eq_of_map_eq_map (fun a ha b hb => ih a ha (hw b hb)) h)
    | float hx => rw [hfloat hx] at h; cases h
    | _ => cases h
  | map _ ih => cases hw with
    | map hw =>
      rw [toJson, toJson, Json.object.injEq, entriesToJson_eq_mapValues,
        entriesToJson_eq_mapValues] at h
      refine congrArg _ (eq_of_map_eq_map (fun a ha b hb heq => ?_) h)
      obtain ⟨hkey, hvalue⟩ := Prod.mk.inj heq
      exact Prod.ext hkey (ih a ha (hw b hb) hvalue)
    | float hx => rw [hfloat hx] at h; cases h
    | _ => cases h

/-- **Values without infinities and NaN that have one text are one value.** -/
theorem text_injective {v w : Value} (hv : v.AllFinite) (hw : w.AllFinite)
    (h : v.text = w.text) : v = w :=
  toJson_injective hv hw (Json.text_injective hv.toJson hw.toJson h)

end Value

end GraphQuery
