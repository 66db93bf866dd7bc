/-
# Parts are classes of rows

Rows are put one after the other into the part with their signature.  Each step keeps an invariant
(`Collects.place`): the signatures of the parts are those of the rows so far, each once and in the
order of their first rows, the rows of a part are those with its signature, and its key is that of
its first row.  It holds of the parts of any rows (**`partsBySignature_collects`**).

A signature is a text.  Where the key values hold no infinity and no NaN, equal texts come from equal
values, and the parts are the classes of equal key values (**`partition_classes`**).  Equality is
that of the values bit by bit: the whole number one, the real one and the text `1` differ, and so do
the two zeros among the reals.
-/
import GraphQuery.Proofs.Json.Text
import GraphQuery.Rows.Grouping
import Mathlib.Data.List.Induction
import Mathlib.Data.List.Nodup

namespace GraphQuery

open scoped List

/-! ## 1. The first of each -/

section FirstOfEach

variable {α β : Type} [BEq α] [LawfulBEq α] [BEq β] [LawfulBEq β]

theorem eraseDups_concat (l : List α) (a : α) [Decidable (a ∈ l)] :
    (l ++ [a]).eraseDups = if a ∈ l then l.eraseDups else l.eraseDups ++ [a] := by
  have hsingle : [a].eraseDups = [a] := List.eraseDups_cons
  rw [List.eraseDups_append]
  split
  · next h => simp [List.removeAll, h]
  · next h => simp [List.removeAll, h, hsingle]

theorem nodup_eraseDups (l : List α) : l.eraseDups.Nodup := by
  induction l using List.reverseRecOn with
  | nil => exact List.nodup_nil
  | append_singleton l a ih =>
    classical
    rw [eraseDups_concat]
    split
    · exact ih
    · next h =>
      refine List.nodup_append.mpr ⟨ih, List.nodup_singleton a, fun b hb c hc => ?_⟩
      rw [List.mem_singleton] at hc
      rintro rfl
      exact h (List.mem_eraseDups.mp (hc ▸ hb))

/-- Labels of items that are told apart by them repeat where the items do. -/
theorem eraseDups_map {f : α → β} {l : List α} (hf : ∀ a ∈ l, ∀ b ∈ l, f a = f b → a = b) :
    (l.map f).eraseDups = l.eraseDups.map f := by
  induction l using List.reverseRecOn with
  | nil => rfl
  | append_singleton l a ih =>
    classical
    have hl : ∀ b ∈ l, b ∈ l ++ [a] := fun b => List.mem_append_left _
    have hmem : f a ∈ l.map f ↔ a ∈ l := by
      refine ⟨fun h => ?_, List.mem_map_of_mem⟩
      obtain ⟨b, hb, heq⟩ := List.mem_map.mp h
      exact hf b (hl b hb) a (List.mem_append_right _ (List.mem_singleton.mpr rfl)) heq ▸ hb
    rw [List.map_append, List.map_singleton, eraseDups_concat, eraseDups_concat,
      ih fun b hb c hc => hf b (hl b hb) c (hl c hc)]
    by_cases h : a ∈ l
    · rw [if_pos (hmem.mpr h), if_pos h]
    · rw [if_neg (mt hmem.mp h), if_neg h, List.map_append, List.map_singleton]

end FirstOfEach

/-! ## 2. One row -/

variable {names : List String} {row : Row} {rows : List Row} {parts : List (String × Part)}

/-- What the parts of some rows are, with their signatures. -/
structure Collects (names : List String) (rows : List Row) (parts : List (String × Part)) :
    Prop where
  signatures : parts.map Prod.fst = (rows.map (Row.signature names)).eraseDups
  members : ∀ e ∈ parts, e.2.members = rows.filter fun row => Row.signature names row == e.1
  key : ∀ e ∈ parts, e.2.members.head?.map (Row.keyValues names) = some e.2.key

theorem Collects.nil : Collects names [] [] := ⟨rfl, nofun, nofun⟩

theorem Collects.nodup (h : Collects names rows parts) : (parts.map Prod.fst).Nodup := by
  rw [h.signatures]
  exact nodup_eraseDups _

theorem map_fst_place (names : List String) (row : Row) (parts : List (String × Part)) :
    (place names row parts).map Prod.fst =
      if Row.signature names row ∈ parts.map Prod.fst then parts.map Prod.fst
      else parts.map Prod.fst ++ [Row.signature names row] := by
  induction parts with
  | nil => rfl
  | cons e rest ih =>
    obtain ⟨s, p⟩ := e
    rw [place]
    by_cases hs : s = Row.signature names row
    · rw [if_pos hs, if_pos (by rw [List.map_cons, List.mem_cons]; exact Or.inl hs.symm)]
      rfl
    · have hmem : Row.signature names row ∈ ((s, p) :: rest).map Prod.fst ↔
          Row.signature names row ∈ rest.map Prod.fst := by
        rw [List.map_cons, List.mem_cons]
        exact ⟨fun h => h.resolve_left (Ne.symm hs), Or.inr⟩
      rw [if_neg hs, List.map_cons, ih]
      by_cases hrest : Row.signature names row ∈ rest.map Prod.fst
      · rw [if_pos hrest, if_pos (hmem.mpr hrest), List.map_cons]
      · rw [if_neg hrest, if_neg (mt hmem.mp hrest), List.map_cons, List.cons_append]

/-- A row changes the part with its signature and no other. -/
theorem mem_place (hnodup : (parts.map Prod.fst).Nodup) {e : String × Part}
    (h : e ∈ place names row parts) :
    (e ∈ parts ∧ e.1 ≠ Row.signature names row) ∨
      (∃ p, (Row.signature names row, p) ∈ parts ∧
        e = (Row.signature names row, { p with members := p.members ++ [row] })) ∨
      (Row.signature names row ∉ parts.map Prod.fst ∧
        e = (Row.signature names row, ⟨Row.keyValues names row, [row]⟩)) := by
  induction parts with
  | nil => exact Or.inr (Or.inr ⟨List.not_mem_nil, List.mem_singleton.mp h⟩)
  | cons e' rest ih =>
    obtain ⟨s, p⟩ := e'
    obtain ⟨hs, hrest⟩ := List.nodup_cons.mp hnodup
    rw [place] at h
    by_cases heq : s = Row.signature names row
    · rw [if_pos heq] at h
      rcases List.mem_cons.mp h with rfl | h
      · exact Or.inr (Or.inl ⟨p, heq ▸ List.mem_cons_self, by rw [heq]⟩)
      · refine Or.inl ⟨List.mem_cons_of_mem _ h, fun he => hs ?_⟩
        have hmem : e.1 ∈ rest.map Prod.fst := List.mem_map_of_mem h
        rwa [he, ← heq] at hmem
    · rw [if_neg heq] at h
      rcases List.mem_cons.mp h with rfl | h
      · exact Or.inl ⟨List.mem_cons_self, heq⟩
      · rcases ih hrest h with ⟨hmem, hne⟩ | ⟨p', hp', he⟩ | ⟨hnew, he⟩
        · exact Or.inl ⟨List.mem_cons_of_mem _ hmem, hne⟩
        · exact Or.inr (Or.inl ⟨p', List.mem_cons_of_mem _ hp', he⟩)
        · refine Or.inr (Or.inr ⟨?_, he⟩)
          rw [List.map_cons, List.mem_cons, not_or]
          exact ⟨Ne.symm heq, hnew⟩

/-- **One more row.** -/
theorem Collects.place (h : Collects names rows parts) (row : Row) :
    Collects names (rows ++ [row]) (place names row parts) := by
  have hsigs : ∀ {s}, s ∈ parts.map Prod.fst ↔ s ∈ rows.map (Row.signature names) := by
    rw [h.signatures]
    exact List.mem_eraseDups
  have hown : [row].filter (fun r => Row.signature names r == Row.signature names row) = [row] :=
    List.filter_cons_of_pos (beq_self_eq_true _)
  refine ⟨?_, fun e he => ?_, fun e he => ?_⟩
  · rw [map_fst_place, List.map_append, List.map_singleton, eraseDups_concat, ← h.signatures]
    simp only [hsigs]
  · rw [List.filter_append]
    rcases mem_place h.nodup he with ⟨hmem, hne⟩ | ⟨p, hp, rfl⟩ | ⟨hnew, rfl⟩
    · rw [h.members e hmem, List.filter_cons_of_neg (by simpa using Ne.symm hne), List.filter_nil,
        List.append_nil]
    · rw [← h.members _ hp, hown]
    · have hnone : rows.filter (fun r => Row.signature names r == Row.signature names row) = [] := by
        refine List.filter_eq_nil_iff.mpr fun r hr hs => hnew (hsigs.mpr ?_)
        exact eq_of_beq hs ▸ List.mem_map_of_mem hr
      rw [hnone, hown, List.nil_append]
  · rcases mem_place h.nodup he with ⟨hmem, -⟩ | ⟨p, hp, rfl⟩ | ⟨-, rfl⟩
    · exact h.key e hmem
    · have hkey := h.key _ hp
      cases hmembers : p.members with
      | nil => rw [hmembers] at hkey; cases hkey
      | cons first others => rw [hmembers] at hkey; exact hkey
    · rfl

/-! ## 3. All rows -/

/-- **The parts of rows.** -/
theorem partsBySignature_collects (names : List String) (rows : List Row) :
    Collects names rows (partsBySignature names rows) := by
  induction rows using List.reverseRecOn with
  | nil => exact .nil
  | append_singleton rows row ih =>
    rw [partsBySignature, List.foldl_concat]
    exact ih.place row

theorem partition_nil (rows : List Row) : partition [] rows = [⟨[], rows⟩] := rfl

theorem partition_of_ne_nil (h : names ≠ []) (rows : List Row) :
    partition names rows = (partsBySignature names rows).map Prod.snd :=
  if_neg (by simpa using h)

/-! ## 4. Signatures that tell key values apart -/

/-- No infinity and no NaN stands in the key values of the rows. -/
def FiniteKeys (names : List String) (rows : List Row) : Prop :=
  ∀ row ∈ rows, ∀ name ∈ names, (Row.valueAt row name).AllFinite

theorem Row.keyValues_allFinite (h : ∀ name ∈ names, (Row.valueAt row name).AllFinite) :
    (Value.list (Row.keyValues names row)).AllFinite := by
  refine .list fun v hv => ?_
  obtain ⟨name, hname, rfl⟩ := List.mem_map.mp hv
  exact h name hname

theorem FiniteKeys.keyValues_eq_of_signature_eq (h : FiniteKeys names rows) {a b : Row}
    (ha : a ∈ rows) (hb : b ∈ rows) (heq : Row.signature names a = Row.signature names b) :
    Row.keyValues names a = Row.keyValues names b :=
  Value.list.inj (Value.text_injective (Row.keyValues_allFinite (h a ha))
    (Row.keyValues_allFinite (h b hb)) heq)

theorem FiniteKeys.signature_eq_iff (h : FiniteKeys names rows) {a b : Row} (ha : a ∈ rows)
    (hb : b ∈ rows) :
    Row.signature names a = Row.signature names b ↔
      Row.keyValues names a = Row.keyValues names b :=
  ⟨h.keyValues_eq_of_signature_eq ha hb, fun heq => by rw [Row.signature, heq, Row.signature]⟩

/-- The text of a list of key values. -/
def signatureOf (key : List Value) : String := (Value.list key).text

theorem map_signature (names : List String) (rows : List Row) :
    rows.map (Row.signature names) = (rows.map (Row.keyValues names)).map signatureOf := by
  rw [List.map_map]
  rfl

/-- The first row of a part has its signature and its key. -/
theorem Collects.first (h : Collects names rows parts) {e : String × Part} (he : e ∈ parts) :
    ∃ first ∈ rows, Row.signature names first = e.1 ∧ Row.keyValues names first = e.2.key := by
  obtain ⟨first, hfirst, hkey⟩ := Option.map_eq_some_iff.mp (h.key e he)
  have hmem : first ∈ e.2.members := List.mem_of_mem_head? hfirst
  rw [h.members e he, List.mem_filter] at hmem
  exact ⟨first, hmem.1, eq_of_beq hmem.2, hkey⟩

/-- The keys of the parts are those of the rows, in the order of their first rows. -/
theorem map_key_partition (hnames : names ≠ []) (hfinite : FiniteKeys names rows) :
    (partition names rows).map Part.key = (rows.map (Row.keyValues names)).eraseDups := by
  have h := partsBySignature_collects names rows
  have htexts : (partsBySignature names rows).map Prod.fst =
      ((partsBySignature names rows).map fun e => e.2.key).map signatureOf := by
    rw [List.map_map]
    refine List.map_congr_left fun e he => ?_
    obtain ⟨first, -, hsignature, hkey⟩ := h.first he
    rw [← hsignature, Function.comp_apply, ← hkey]
    rfl
  have hinj : ∀ a ∈ rows.map (Row.keyValues names), ∀ b ∈ rows.map (Row.keyValues names),
      signatureOf a = signatureOf b → a = b := by
    intro a ha b hb heq
    obtain ⟨x, hx, rfl⟩ := List.mem_map.mp ha
    obtain ⟨y, hy, rfl⟩ := List.mem_map.mp hb
    exact hfinite.keyValues_eq_of_signature_eq hx hy heq
  rw [partition_of_ne_nil hnames, List.map_map]
  refine eq_of_map_eq_map (f := signatureOf) ?_ ?_
  · intro a ha b hb
    obtain ⟨e, he, rfl⟩ := List.mem_map.mp ha
    obtain ⟨first, hfirst, -, hkey⟩ := h.first he
    have hmem : Row.keyValues names first ∈ rows.map (Row.keyValues names) :=
      List.mem_map_of_mem hfirst
    rw [hkey] at hmem
    exact hinj _ hmem b (List.mem_eraseDups.mp hb)
  · rw [← eraseDups_map hinj, ← map_signature, ← h.signatures, htexts]
    rfl

/-- The rows of a part are those with its key, in their order. -/
theorem members_of_mem_partition (hfinite : FiniteKeys names rows) {p : Part}
    (hp : p ∈ partition names rows) :
    p.members = rows.filter fun row => Row.keyValues names row == p.key := by
  by_cases hnames : names = []
  · subst hnames
    rw [partition_nil, List.mem_singleton] at hp
    subst hp
    exact (List.filter_eq_self.mpr fun _ _ => rfl).symm
  · rw [partition_of_ne_nil hnames] at hp
    obtain ⟨e, he, rfl⟩ := List.mem_map.mp hp
    have h := partsBySignature_collects names rows
    obtain ⟨first, hfirst, hsignature, hkey⟩ := h.first he
    rw [h.members e he, ← hsignature, ← hkey]
    refine List.filter_congr fun r hr => ?_
    rw [Bool.eq_iff_iff, beq_iff_eq, beq_iff_eq]
    exact hfinite.signature_eq_iff hr hfirst

/-- The rows of a part are among the rows, whatever the texts of their keys are. -/
theorem members_subset_of_mem_partition {p : Part} (h : p ∈ partition names rows) :
    p.members ⊆ rows := by
  by_cases hnames : names = []
  · rw [hnames, partition_nil, List.mem_singleton] at h
    rw [h]
    exact List.Subset.refl _
  · rw [partition_of_ne_nil hnames] at h
    obtain ⟨e, he, rfl⟩ := List.mem_map.mp h
    rw [(partsBySignature_collects names rows).members e he]
    exact List.filter_sublist.subset

/-! ## 5. Classes -/

/-- Items taken label by label, each label once, are all items. -/
theorem flatMap_filter_perm {α β : Type} [BEq β] [LawfulBEq β] {f : α → β}
    {labels : List β} (hnodup : labels.Nodup) {l : List α} (hall : ∀ a ∈ l, f a ∈ labels) :
    labels.flatMap (fun b => l.filter fun a => f a == b) ~ l := by
  induction labels generalizing l with
  | nil =>
    rw [List.eq_nil_iff_forall_not_mem.mpr fun a ha => List.not_mem_nil (hall a ha)]
    exact .nil
  | cons b labels ih =>
    obtain ⟨hb, hnodup⟩ := List.nodup_cons.mp hnodup
    -- the items with other labels are those of the rest of the list
    have hrest : labels.flatMap (fun c => l.filter fun a => f a == c) =
        labels.flatMap fun c => (l.filter fun a => !(f a == b)).filter fun a => f a == c := by
      refine List.flatMap_congr fun c hc => ?_
      rw [List.filter_filter]
      refine List.filter_congr fun a _ => ?_
      by_cases hac : f a = c
      · have hbc : f a ≠ b := fun heq => hb (heq ▸ hac ▸ hc)
        simp [hac ▸ hbc, hac]
      · simp [hac]
    have hothers : ∀ a ∈ l.filter (fun a => !(f a == b)), f a ∈ labels := by
      intro a ha
      obtain ⟨ha, hne⟩ := List.mem_filter.mp ha
      exact (List.mem_cons.mp (hall a ha)).resolve_left (by simpa using hne)
    rw [List.flatMap_cons, hrest]
    exact ((ih hnodup hothers).append_left _).trans (List.filter_append_perm _ l)

/-- Different parts have different keys. -/
theorem nodup_map_key_partition (hfinite : FiniteKeys names rows) :
    ((partition names rows).map Part.key).Nodup := by
  by_cases hnames : names = []
  · subst hnames
    exact List.nodup_singleton _
  · rw [map_key_partition hnames hfinite]
    exact nodup_eraseDups _

/-- Every row has the key of some part. -/
theorem keyValues_mem_map_key (hfinite : FiniteKeys names rows) {row : Row} (hrow : row ∈ rows) :
    Row.keyValues names row ∈ (partition names rows).map Part.key := by
  by_cases hnames : names = []
  · subst hnames
    exact List.mem_singleton.mpr rfl
  · rw [map_key_partition hnames hfinite]
    exact List.mem_eraseDups.mpr (List.mem_map_of_mem hrow)

theorem mem_members_iff (hfinite : FiniteKeys names rows) {p : Part}
    (hp : p ∈ partition names rows) {row : Row} :
    row ∈ p.members ↔ row ∈ rows ∧ Row.keyValues names row = p.key := by
  rw [members_of_mem_partition hfinite hp, List.mem_filter, beq_iff_eq]

/-- The parts hold all rows, each as often as it was given. -/
theorem flatMap_members_perm (hfinite : FiniteKeys names rows) :
    (partition names rows).flatMap Part.members ~ rows := by
  have hmembers : (partition names rows).flatMap Part.members =
      ((partition names rows).map Part.key).flatMap
        fun key => rows.filter fun row => Row.keyValues names row == key := by
    rw [List.flatMap_map]
    exact List.flatMap_congr fun p hp => members_of_mem_partition hfinite hp
  rw [hmembers]
  exact flatMap_filter_perm (nodup_map_key_partition hfinite)
    fun row hrow => keyValues_mem_map_key hfinite hrow

/-- **Parts are the classes of equal key values.**  Two rows share a part exactly if their key values
are equal.  The parts stand in the order in which their keys first appear, and the rows of a part
are all rows with its key, in their order; so each row is in one part and none is lost.  Without
names there is one part with all rows, be there any or none. -/
theorem partition_classes (hfinite : FiniteKeys names rows) :
    (∀ a ∈ rows, ∀ b ∈ rows,
      (∃ p ∈ partition names rows, a ∈ p.members ∧ b ∈ p.members) ↔
        Row.keyValues names a = Row.keyValues names b) ∧
    (names ≠ [] →
      (partition names rows).map Part.key = (rows.map (Row.keyValues names)).eraseDups) ∧
    (∀ p ∈ partition names rows,
      p.members = rows.filter fun row => Row.keyValues names row = p.key) ∧
    (∀ row ∈ rows, ∃! p, p ∈ partition names rows ∧ row ∈ p.members) ∧
    (partition names rows).flatMap Part.members ~ rows ∧
    (names = [] → partition names rows = [⟨[], rows⟩]) := by
  have hpart : ∀ row ∈ rows, ∃ p ∈ partition names rows, p.key = Row.keyValues names row :=
    fun row hrow => List.mem_map.mp (keyValues_mem_map_key hfinite hrow)
  refine ⟨fun a ha b hb => ⟨?_, fun heq => ?_⟩, fun hnames => map_key_partition hnames hfinite,
    fun p hp => ?_, fun row hrow => ?_, flatMap_members_perm hfinite,
    fun hnames => hnames ▸ partition_nil rows⟩
  · rintro ⟨p, hp, hap, hbp⟩
    exact ((mem_members_iff hfinite hp).mp hap).2.trans ((mem_members_iff hfinite hp).mp hbp).2.symm
  · obtain ⟨p, hp, hkey⟩ := hpart a ha
    exact ⟨p, hp, (mem_members_iff hfinite hp).mpr ⟨ha, hkey.symm⟩,
      (mem_members_iff hfinite hp).mpr ⟨hb, heq.symm.trans hkey.symm⟩⟩
  · rw [members_of_mem_partition hfinite hp]
    exact List.filter_congr fun row _ => by rw [Bool.eq_iff_iff, beq_iff_eq, decide_eq_true_iff]
  · obtain ⟨p, hp, hkey⟩ := hpart row hrow
    refine ⟨p, ⟨hp, (mem_members_iff hfinite hp).mpr ⟨hrow, hkey.symm⟩⟩, ?_⟩
    rintro q ⟨hq, hrowq⟩
    exact List.inj_on_of_nodup_map (nodup_map_key_partition hfinite) hq hp
      (((mem_members_iff hfinite hq).mp hrowq).2.symm.trans hkey.symm)

/-- Whole numbers, reals and texts make classes of their own, and a missing entry stands for null. -/
theorem partition_classes_mixed :
    let rows : List Row := [[("a", .int 1)], [("a", .float (.ofInt 1))], [("a", .string "1")],
      [], [("a", .null)], [("a", .int 1), ("b", .int 2)]]
    FiniteKeys ["a"] rows ∧ (partition ["a"] rows).map Part.key =
      [[.int 1], [.float (.ofInt 1)], [.string "1"], [.null]] := by
  intro rows
  have hfinite : FiniteKeys ["a"] rows := by
    simp only [FiniteKeys, rows, List.forall_mem_cons, List.not_mem_nil, false_implies,
      implies_true, and_true]
    exact ⟨.int, .float (by decide +kernel), .string, .null, .null, .int⟩
  refine ⟨hfinite, ?_⟩
  rw [(partition_classes hfinite).2.1 (by decide)]
  decide +kernel

end GraphQuery
