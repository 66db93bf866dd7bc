/-
# How schemas are built

A schema comes about in one of two ways.  A builder takes type definitions one after the other and
refuses some of them; then it checks all relationships at once.  A document brings all its types
together, and is checked without going through the builder's additions.

* A refused type leaves the builder as it was (`SchemaBuilder.done_of_error`).  `SchemaBuilder.run`
  follows the additions, refused ones included, with the builder that each of them leaves, and notes
  which types were accepted.  After every run the builder holds exactly those
  (`SchemaBuilder.run_sound`).
* `Closed types` is what the relationships of a schema have to fulfil: targets and inverses exist.
  A builder builds exactly if its types are closed (**`Sound.build_eq_ok_iff`**).
* A document is accepted exactly if the builder accepts its types, in any order
  (**`Schema.ofJson_eq_ok_iff`**), since the map of types does not remember the order.
* What is built may be relied on (**`Schema.Built.whole`**).
-/
import GraphQuery.Proofs.Json.Record
import GraphQuery.Proofs.Outcome
import GraphQuery.Schema.Document
import Mathlib.Data.List.Induction

namespace GraphQuery

/-! ## 1. Defining a type -/

namespace ResourceType

/-- One step in the definition of a type. -/
inductive Declaration where
  | idAttribute (name : String)
  | attr (name valueType : String)
  | relationship (r : Relationship)
  deriving DecidableEq, Repr

/-- The type with one more declaration. -/
def declare (t : ResourceType) : Declaration → ResourceType
  | .idAttribute name => { t with idAttribute := name }
  | .attr name valueType => t.withAttribute name valueType
  | .relationship r => t.withRelationship r

/-- Attributes and relationships stand under their own names. -/
structure Named (t : ResourceType) : Prop where
  attributes_sorted : Keyed.Sorted t.attributes
  relationships_sorted : Keyed.Sorted t.relationships
  attributes : ∀ e ∈ t.attributes, e.2.name = e.1
  relationships : ∀ e ∈ t.relationships, e.2.name = e.1

/-- No name is that of an attribute and of a relationship. -/
def FieldsDisjoint (t : ResourceType) : Prop :=
  ∀ name ∈ Keyed.keys t.relationships, name ∉ Keyed.keys t.attributes

theorem checkFields_eq_ok_iff {t : ResourceType} :
    t.checkFields = .ok () ↔ t.FieldsDisjoint := by
  have hshared : t.sharedName? = none ↔ t.FieldsDisjoint := by
    rw [sharedName?, List.find?_eq_none]
    simp only [Keyed.contains_iff]
    rfl
  rw [← hshared, checkFields]
  cases t.sharedName? with
  | none => simp
  | some name => simp

theorem Named.declare {t : ResourceType} (h : t.Named) (d : Declaration) : (t.declare d).Named := by
  cases d with
  | idAttribute name => exact ⟨h.1, h.2, h.3, h.4⟩
  | attr name valueType =>
    refine ⟨h.attributes_sorted.insert, h.relationships_sorted, ?_, h.relationships⟩
    intro e he
    rcases Keyed.mem_insert he with rfl | he
    · rfl
    · exact h.attributes e he
  | relationship r =>
    refine ⟨h.attributes_sorted, h.relationships_sorted.insert, h.attributes, ?_⟩
    intro e he
    rcases Keyed.mem_insert he with rfl | he
    · rfl
    · exact h.relationships e he

end ResourceType

/-- The definition of a type: its name, and what is declared of it, one after the other. -/
structure TypeDefinition where
  name : String
  declarations : List ResourceType.Declaration := []
  deriving DecidableEq, Repr

/-- The type that is defined. -/
def TypeDefinition.type (d : TypeDefinition) : ResourceType :=
  d.declarations.foldl ResourceType.declare { name := d.name }

namespace TypeDefinition

theorem type_spec (d : TypeDefinition) : d.type.name = d.name ∧ d.type.Named := by
  have hstep : ∀ (ds : List ResourceType.Declaration) (t : ResourceType),
      t.name = d.name → t.Named →
        (ds.foldl ResourceType.declare t).name = d.name ∧
          (ds.foldl ResourceType.declare t).Named := by
    intro ds
    induction ds with
    | nil => exact fun t hname hnamed => ⟨hname, hnamed⟩
    | cons x rest ih =>
      intro t hname hnamed
      refine ih (t.declare x) ?_ (hnamed.declare x)
      cases x <;> exact hname
  refine hstep d.declarations _ rfl ⟨?_, ?_, ?_, ?_⟩
  · exact List.Pairwise.nil
  · exact List.Pairwise.nil
  · simp
  · simp

end TypeDefinition

namespace ResourceType

/-- The definition that gives a type back. -/
def definition (t : ResourceType) : TypeDefinition where
  name := t.name
  declarations := .idAttribute t.idAttribute ::
    (t.attributes.map fun e => .attr e.1 e.2.valueType) ++
      t.relationships.map fun e => .relationship e.2

/-- Declaring attributes sets the entries of the attributes. -/
theorem foldl_declare_attributes (t : ResourceType) (attributes : List (String × Attribute))
    (h : ∀ e ∈ attributes, e.2.name = e.1) :
    (attributes.map fun e => Declaration.attr e.1 e.2.valueType).foldl declare t =
      { t with attributes := Keyed.overlay t.attributes attributes } := by
  induction attributes generalizing t with
  | nil => rfl
  | cons e rest ih =>
    obtain ⟨name, a⟩ := e
    obtain ⟨rfl : a.name = name, hrest⟩ := List.forall_mem_cons.mp h
    rw [List.map_cons, List.foldl_cons, ih _ hrest]
    rfl

/-- Declaring relationships sets the entries of the relationships. -/
theorem foldl_declare_relationships (t : ResourceType)
    (relationships : List (String × Relationship)) (h : ∀ e ∈ relationships, e.2.name = e.1) :
    (relationships.map fun e => Declaration.relationship e.2).foldl declare t =
      { t with relationships := Keyed.overlay t.relationships relationships } := by
  induction relationships generalizing t with
  | nil => rfl
  | cons e rest ih =>
    obtain ⟨name, r⟩ := e
    obtain ⟨rfl : r.name = name, hrest⟩ := List.forall_mem_cons.mp h
    rw [List.map_cons, List.foldl_cons, ih _ hrest]
    rfl

/-- **A type whose fields stand under their own names can be defined.** -/
theorem Named.type_definition {t : ResourceType} (h : t.Named) : t.definition.type = t := by
  rw [TypeDefinition.type, definition, List.cons_append, List.foldl_cons, List.foldl_append,
    foldl_declare_attributes _ _ h.attributes, foldl_declare_relationships _ _ h.relationships]
  have hattributes : Keyed.overlay [] t.attributes = t.attributes :=
    Keyed.ofList_of_sorted h.attributes_sorted
  have hrelationships : Keyed.overlay [] t.relationships = t.relationships :=
    Keyed.ofList_of_sorted h.relationships_sorted
  show (⟨t.name, t.idAttribute, Keyed.overlay [] t.attributes,
    Keyed.overlay [] t.relationships⟩ : ResourceType) = t
  rw [hattributes, hrelationships]

end ResourceType

/-! ## 2. Runs of a builder -/

/-- The targets and inverses of all relationships are there: the target is one of the types, and
the inverse a relationship of the target. -/
def ClosedTypes (types : List ResourceType) : Prop :=
  ∀ t ∈ types, ∀ e ∈ t.relationships, ∃ target ∈ types, target.name = e.2.target ∧
    ∀ inverse, e.2.inverse = some inverse → inverse ∈ Keyed.keys target.relationships

namespace SchemaBuilder

/-- A builder, and the types that it has accepted, in order. -/
structure History where
  builder : SchemaBuilder := {}
  accepted : List ResourceType := []
  deriving DecidableEq, Repr

/-- A type is to be added.  The run goes on with the builder that the call leaves. -/
def History.add (x : History) (t : ResourceType) : History where
  builder := (x.builder.done t).2
  accepted :=
    match (x.builder.done t).1 with
    | .ok _ => x.accepted ++ [t]
    | .error _ => x.accepted

/-- Types are to be added one after the other. -/
def run (types : List ResourceType) : History := types.foldl History.add {}

theorem run_concat (types : List ResourceType) (t : ResourceType) :
    run (types ++ [t]) = (run types).add t := List.foldl_concat ..

/-- The builder holds exactly the accepted types, under names of their own. -/
structure History.Sound (x : History) : Prop where
  sorted : Keyed.Sorted x.builder.types
  distinct : (x.accepted.map ResourceType.name).Nodup
  get?_eq_some_iff : ∀ name t,
    Keyed.get? name x.builder.types = some t ↔ t ∈ x.accepted ∧ t.name = name
  disjoint : ∀ t ∈ x.accepted, t.FieldsDisjoint

theorem done_eq_ok_iff {b b' : SchemaBuilder} {t : ResourceType} :
    b.done t = (.ok (), b') ↔
      Keyed.get? t.name b.types = none ∧ t.FieldsDisjoint ∧ b' = ⟨Keyed.insert t.name t b.types⟩ := by
  rw [← ResourceType.checkFields_eq_ok_iff, done, Keyed.contains]
  cases Keyed.get? t.name b.types with
  | some found => simp
  | none => cases t.checkFields <;> simp [eq_comm]

/-- **A call that is refused leaves the builder as it was.** -/
theorem done_of_error {b : SchemaBuilder} {t : ResourceType} {e : SchemaError}
    (h : (b.done t).1 = .error e) : (b.done t).2 = b := by
  unfold done at h ⊢
  split at h
  · next htaken => rw [if_pos htaken]
  · next hnew =>
    rw [if_neg hnew]
    cases hfields : t.checkFields with
    | error e => rfl
    | ok _ =>
      rw [hfields] at h
      cases h

theorem add_eq_ok_iff {b b' : SchemaBuilder} {t : ResourceType} :
    b.add t = .ok b' ↔ b.done t = (.ok (), b') := map_snd_eq_ok

namespace History

variable {x : History} {t : ResourceType}

theorem add_of_ok {b : SchemaBuilder} (h : x.builder.add t = .ok b) :
    x.add t = ⟨b, x.accepted ++ [t]⟩ := by
  rw [add, add_eq_ok_iff.mp h]

/-- **A refused type changes nothing**, since the builder that the call leaves is the one before. -/
theorem add_of_error {e : SchemaError} (h : (x.builder.done t).1 = .error e) : x.add t = x := by
  rw [add, h, done_of_error h]

/-- A type is accepted if its name is new and its fields have names of their own. -/
theorem Sound.exists_add_eq_ok_iff (h : x.Sound) :
    (∃ b, x.builder.add t = .ok b) ↔
      t.name ∉ x.accepted.map ResourceType.name ∧ t.FieldsDisjoint := by
  have hnew : Keyed.get? t.name x.builder.types = none ↔
      t.name ∉ x.accepted.map ResourceType.name := by
    rw [Option.eq_none_iff_forall_ne_some, List.mem_map, not_exists]
    simp only [ne_eq, h.get?_eq_some_iff]
  simp only [add_eq_ok_iff, done_eq_ok_iff, ← hnew]
  constructor
  · rintro ⟨-, hname, hfields, -⟩
    exact ⟨hname, hfields⟩
  · rintro ⟨hname, hfields⟩
    exact ⟨_, hname, hfields, rfl⟩

theorem Sound.add (h : x.Sound) (t : ResourceType) : (x.add t).Sound := by
  cases hadd : x.builder.add t with
  | error e =>
    rw [add_of_error (map_eq_error.mp hadd)]
    exact h
  | ok b =>
    have hnew := (h.exists_add_eq_ok_iff.mp ⟨b, hadd⟩).1
    obtain ⟨hname, hfields, rfl⟩ := done_eq_ok_iff.mp (add_eq_ok_iff.mp hadd)
    rw [add_of_ok hadd]
    refine ⟨h.sorted.insert, ?_, ?_, ?_⟩
    · rw [List.map_append, List.map_singleton, ← List.concat_eq_append, List.nodup_concat]
      exact ⟨hnew, h.distinct⟩
    · intro name found
      rw [Keyed.get?_insert, List.mem_append, List.mem_singleton]
      split
      · next heq =>
        constructor
        · intro hfound
          obtain rfl := Option.some.inj hfound
          exact ⟨Or.inr rfl, heq⟩
        · rintro ⟨hmem | rfl, hfound⟩
          · exact absurd (List.mem_map.mpr ⟨found, hmem, hfound.trans heq.symm⟩) hnew
          · rfl
      · next hne =>
        rw [h.get?_eq_some_iff]
        constructor
        · rintro ⟨hmem, hfound⟩
          exact ⟨Or.inl hmem, hfound⟩
        · rintro ⟨hmem | rfl, hfound⟩
          · exact ⟨hmem, hfound⟩
          · exact absurd hfound hne
    · intro found hfound
      rcases List.mem_append.mp hfound with hmem | hmem
      · exact h.disjoint found hmem
      · obtain rfl := List.mem_singleton.mp hmem
        exact hfields

theorem Sound.mem_values_iff (h : x.Sound) :
    t ∈ Keyed.values x.builder.types ↔ t ∈ x.accepted := by
  rw [Keyed.values, List.mem_map]
  constructor
  · rintro ⟨e, he, rfl⟩
    exact ((h.get?_eq_some_iff e.1 e.2).mp (h.sorted.mem_iff.mp he)).1
  · intro hmem
    have hget := (h.get?_eq_some_iff t.name t).mpr ⟨hmem, rfl⟩
    exact ⟨(t.name, t), Keyed.mem_of_get?_eq_some hget, rfl⟩

/-- A relationship is in order if its target is accepted and its inverse is there. -/
theorem Sound.check_eq_ok_iff (h : x.Sound) {r : Relationship} {owner : ResourceType} :
    r.check x.builder.types owner = .ok () ↔
      ∃ target ∈ x.accepted, target.name = r.target ∧
        ∀ inverse, r.inverse = some inverse → inverse ∈ Keyed.keys target.relationships := by
  have hinverse : ∀ target : ResourceType, ∀ inverse,
      (target.relationship? inverse).isSome = true ↔ inverse ∈ Keyed.keys target.relationships :=
    fun target inverse => Keyed.contains_iff
  unfold Relationship.check
  cases htarget : Keyed.get? r.target x.builder.types with
  | none =>
    refine iff_of_false (by simp) ?_
    rintro ⟨target, hmem, hname, -⟩
    rw [(h.get?_eq_some_iff r.target target).mpr ⟨hmem, hname⟩] at htarget
    cases htarget
  | some target =>
    obtain ⟨hmem, hname⟩ := (h.get?_eq_some_iff r.target target).mp htarget
    have honly : ∀ other ∈ x.accepted, other.name = r.target → other = target := by
      intro other hother hotherName
      have := (h.get?_eq_some_iff r.target other).mpr ⟨hother, hotherName⟩
      exact Option.some.inj (this.symm.trans htarget)
    cases hr : r.inverse with
    | none =>
      refine iff_of_true rfl ⟨target, hmem, hname, ?_⟩
      simp
    | some inverse =>
      dsimp only
      cases hfound : target.relationship? inverse with
      | none =>
        refine iff_of_false (by simp) ?_
        rintro ⟨other, hother, hotherName, hall⟩
        obtain rfl := honly other hother hotherName
        have := (hinverse other inverse).mpr (hall inverse rfl)
        rw [hfound] at this
        cases this
      | some r' =>
        refine iff_of_true rfl ⟨target, hmem, hname, ?_⟩
        rintro _ ⟨⟩
        rw [← hinverse, hfound]
        rfl

/-- **A builder builds exactly if the accepted types are closed.** -/
theorem Sound.build_eq_ok_iff (h : x.Sound) {s : Schema} :
    x.builder.build = .ok s ↔ ClosedTypes x.accepted ∧ s = ⟨x.builder.types⟩ := by
  rw [build, check_bind_eq_ok, pure_eq_ok, forM_eq_ok_iff, eq_comm (a := s)]
  refine and_congr_left fun _ => ?_
  simp only [h.mem_values_iff, ResourceType.checkRelationships, forM_eq_ok_iff, h.check_eq_ok_iff]
  simp only [Keyed.values, List.forall_mem_map, ClosedTypes]

end History

/-- **After every run the builder holds exactly the accepted types.** -/
theorem run_sound (types : List ResourceType) : (run types).Sound := by
  induction types using List.reverseRecOn with
  | nil => exact ⟨List.Pairwise.nil, List.nodup_nil, by simp [run], by simp [run]⟩
  | append_singleton types t ih =>
    rw [run_concat]
    exact ih.add t

/-- Types come in only if they are added. -/
theorem accepted_sublist (types : List ResourceType) : (run types).accepted.Sublist types := by
  induction types using List.reverseRecOn with
  | nil => exact List.Sublist.refl _
  | append_singleton types t ih =>
    rw [run_concat]
    cases hadd : (run types).builder.add t with
    | ok b =>
      rw [History.add_of_ok hadd]
      exact ih.append_right [t]
    | error e =>
      rw [History.add_of_error (map_eq_error.mp hadd)]
      exact ih.trans (List.sublist_append_left types [t])

/-- All types are accepted exactly if they have names of their own, and so have their fields. -/
theorem accepted_run_eq_iff {types : List ResourceType} :
    (run types).accepted = types ↔
      (types.map ResourceType.name).Nodup ∧ ∀ t ∈ types, t.FieldsDisjoint := by
  constructor
  · intro h
    have hsound := run_sound types
    refine ⟨?_, ?_⟩
    · have := hsound.distinct
      rwa [h] at this
    · have := hsound.disjoint
      rwa [h] at this
  · induction types using List.reverseRecOn with
    | nil => exact fun _ => rfl
    | append_singleton types t ih =>
      rintro ⟨hnames, hfields⟩
      rw [List.map_append, List.map_singleton, ← List.concat_eq_append, List.nodup_concat] at hnames
      have hbefore : (run types).accepted = types :=
        ih ⟨hnames.2, fun u hu => hfields u (List.mem_append_left _ hu)⟩
      have hadd : ∃ b, (run types).builder.add t = .ok b := by
        rw [(run_sound types).exists_add_eq_ok_iff, hbefore]
        exact ⟨hnames.1, hfields t (List.mem_append_right _ (List.mem_singleton_self t))⟩
      obtain ⟨b, hb⟩ := hadd
      rw [run_concat, History.add_of_ok hb, hbefore]

end SchemaBuilder

/-! ## 3. Documents -/

/-- Types that are declared in a document stand under their own names, and so do their fields. -/
structure DeclaredTypes (types : List (String × ResourceType)) : Prop where
  sorted : Keyed.Sorted types
  name : ∀ e ∈ types, e.2.name = e.1
  named : ∀ e ∈ types, e.2.Named

theorem sorted_attachNames {α : Type} {entries : List (String × (String → α))}
    (h : Keyed.Sorted entries) : Keyed.Sorted (attachNames entries) := by
  rw [Keyed.Sorted, attachNames, Keyed.keys_map fun name (f : String → α) => f name]
  exact h

theorem exists_of_mem_attachNames {α : Type} {entries : List (String × (String → α))}
    {e : String × α} (h : e ∈ attachNames entries) :
    ∃ source ∈ entries, e = (source.1, source.2 source.1) := by
  obtain ⟨source, hsource, rfl⟩ := List.mem_map.mp h
  exact ⟨source, hsource, rfl⟩

/-- A map of declarations that may be missing is in key order, and its values are declared. -/
theorem orElse?_map?_eq_some {α : Type} {read : Json → Option α} {field : Option Json}
    {entries : List (String × α)} (h : Json.orElse? (Json.map? read) [] field = some entries) :
    Keyed.Sorted entries ∧ ∀ e ∈ entries, ∃ j, read j = some e.2 := by
  unfold Json.orElse? at h
  split at h
  · obtain rfl := Option.some.inj h
    exact ⟨List.Pairwise.nil, by simp⟩
  · exact Json.map?_eq_some h

theorem Attribute.name_of_ofJson? {j : Json} {declared : String → Attribute}
    (h : Attribute.ofJson? j = some declared) (name : String) : (declared name).name = name := by
  unfold Attribute.ofJson? at h
  split at h
  · simp only [Option.bind_eq_bind, Option.bind_eq_some_iff] at h
    obtain ⟨valueType, -, h⟩ := h
    rw [← Option.some.inj h]
  · cases h

theorem Relationship.name_of_ofJson? {j : Json} {declared : String → Relationship}
    (h : Relationship.ofJson? j = some declared) (name : String) : (declared name).name = name := by
  unfold Relationship.ofJson? at h
  split at h
  · simp only [Option.bind_eq_bind, Option.bind_eq_some_iff] at h
    obtain ⟨target, -, cardinality, -, inverse, -, h⟩ := h
    rw [← Option.some.inj h]
  · cases h

theorem ResourceType.named_of_ofJson? {j : Json} {declared : String → ResourceType}
    (h : ResourceType.ofJson? j = some declared) (name : String) :
    (declared name).name = name ∧ (declared name).Named := by
  unfold ResourceType.ofJson? at h
  split at h
  · simp only [Option.bind_eq_bind, Option.bind_eq_some_iff] at h
    obtain ⟨idAttribute, -, attributes, hattributes, relationships, hrelationships, h⟩ := h
    obtain ⟨hsorted, hread⟩ := orElse?_map?_eq_some hattributes
    obtain ⟨hsorted', hread'⟩ := orElse?_map?_eq_some hrelationships
    rw [← Option.some.inj h]
    refine ⟨rfl, sorted_attachNames hsorted, sorted_attachNames hsorted', ?_, ?_⟩
    · intro e he
      obtain ⟨source, hsource, rfl⟩ := exists_of_mem_attachNames he
      obtain ⟨j, hj⟩ := hread source hsource
      exact Attribute.name_of_ofJson? hj source.1
    · intro e he
      obtain ⟨source, hsource, rfl⟩ := exists_of_mem_attachNames he
      obtain ⟨j, hj⟩ := hread' source hsource
      exact Relationship.name_of_ofJson? hj source.1
  · cases h

namespace Schema

theorem declaredTypes_of_declarations? {j : Json} {types : List (String × ResourceType)}
    (h : declarations? j = some types) : DeclaredTypes types := by
  unfold declarations? at h
  split at h
  · simp only [Option.bind_eq_bind, Option.bind_eq_some_iff, Json.required?] at h
    obtain ⟨declared, ⟨source, -, hsource⟩, h⟩ := h
    obtain rfl := Option.some.inj h
    obtain ⟨hsorted, hread⟩ := Json.map?_eq_some hsource
    refine ⟨sorted_attachNames hsorted, ?_, ?_⟩
    · intro e he
      obtain ⟨source, hsource, rfl⟩ := exists_of_mem_attachNames he
      obtain ⟨j, hj⟩ := hread source hsource
      exact (ResourceType.named_of_ofJson? hj source.1).1
    · intro e he
      obtain ⟨source, hsource, rfl⟩ := exists_of_mem_attachNames he
      obtain ⟨j, hj⟩ := hread source hsource
      exact (ResourceType.named_of_ofJson? hj source.1).2
  · cases h

end Schema

namespace DeclaredTypes

variable {types : List (String × ResourceType)} {added : List ResourceType}

theorem map_name_values (h : DeclaredTypes types) :
    (Keyed.values types).map ResourceType.name = Keyed.keys types := by
  rw [Keyed.values, List.map_map, Keyed.keys]
  exact List.map_congr_left fun e he => h.name e he

theorem mem_values_iff (h : DeclaredTypes types) {name : String} {t : ResourceType} :
    t ∈ Keyed.values types ∧ t.name = name ↔ Keyed.get? name types = some t := by
  constructor
  · rintro ⟨hmem, rfl⟩
    obtain ⟨e, he, rfl⟩ := List.mem_map.mp hmem
    rw [h.name e he]
    exact h.sorted.mem_iff.mp he
  · intro hget
    have hmem : (name, t) ∈ types := Keyed.mem_of_get?_eq_some hget
    exact ⟨List.mem_map.mpr ⟨_, hmem, rfl⟩, h.name _ hmem⟩

/-- **Of all orders in which a builder takes the types, each gives the map of the document.** -/
theorem types_run (h : DeclaredTypes types) (hperm : added.Perm (Keyed.values types))
    (hall : (SchemaBuilder.run added).accepted = added) :
    (SchemaBuilder.run added).builder.types = types := by
  have hsound := SchemaBuilder.run_sound added
  refine hsound.sorted.ext h.sorted fun name => Option.ext fun t => ?_
  rw [hsound.get?_eq_some_iff, hall, hperm.mem_iff]
  exact h.mem_values_iff

/-- All types of a document are accepted if their fields have names of their own. -/
theorem accepted_run_iff (h : DeclaredTypes types) (hperm : added.Perm (Keyed.values types)) :
    (SchemaBuilder.run added).accepted = added ↔ ∀ t ∈ Keyed.values types, t.FieldsDisjoint := by
  have hnames : (added.map ResourceType.name).Nodup := by
    rw [(hperm.map ResourceType.name).nodup_iff, h.map_name_values]
    exact h.sorted.nodup
  rw [SchemaBuilder.accepted_run_eq_iff]
  simp only [hperm.mem_iff, hnames, true_and]

end DeclaredTypes

/-- **A document is accepted exactly if a builder takes its types**, in any order, and builds; then
both give the same schema. -/
theorem Schema.ofJson_eq_ok_iff {j : Json} {types : List (String × ResourceType)}
    (h : declarations? j = some types) {added : List ResourceType}
    (hperm : added.Perm (Keyed.values types)) {s : Schema} :
    ofJson j = .ok s ↔
      (SchemaBuilder.run added).accepted = added ∧
        (SchemaBuilder.run added).builder.build = .ok s := by
  have hdeclared := declaredTypes_of_declarations? h
  have hload : ofJson j = ofDeclarations types := by
    rw [ofJson, h]
  rw [hload, ofDeclarations, check_bind_eq_ok, forM_eq_ok_iff, hdeclared.accepted_run_iff hperm]
  simp only [ResourceType.checkFields_eq_ok_iff]
  refine and_congr_right fun hfields => ?_
  have hall := (hdeclared.accepted_run_iff hperm).mpr hfields
  rw [← hdeclared.types_run hperm hall]

/-! ## 4. Built schemas -/

/-- The schema comes from a builder. -/
def Schema.Built (s : Schema) : Prop :=
  ∃ definitions : List TypeDefinition,
    (SchemaBuilder.run (definitions.map TypeDefinition.type)).builder.build = .ok s

/-- What may be relied on in a schema: its types and their fields stand under their own names, no
field is both attribute and relationship, and targets and inverses are there. -/
structure Schema.Whole (s : Schema) : Prop where
  name : ∀ name t, s.type? name = some t → t.name = name
  named : ∀ name t, s.type? name = some t → t.Named
  disjoint : ∀ name t, s.type? name = some t → t.FieldsDisjoint
  target : ∀ name t, s.type? name = some t → ∀ e ∈ t.relationships,
    ∃ target, s.type? e.2.target = some target ∧
      ∀ inverse, e.2.inverse = some inverse → inverse ∈ Keyed.keys target.relationships

/-- The types of a document can be defined one by one. -/
theorem DeclaredTypes.type_definition {types : List (String × ResourceType)}
    (h : DeclaredTypes types) : ∀ t ∈ Keyed.values types, t.definition.type = t := by
  intro t ht
  obtain ⟨e, he, rfl⟩ := List.mem_map.mp ht
  exact (h.named e he).type_definition

namespace Schema

/-- A document that is accepted gives a schema that a builder gives. -/
theorem built_of_ofJson {j : Json} {s : Schema} (h : ofJson j = .ok s) : s.Built := by
  cases hdeclarations : declarations? j with
  | none =>
    rw [ofJson, hdeclarations] at h
    cases h
  | some types =>
    have hdeclared := declaredTypes_of_declarations? hdeclarations
    have hdefine : ((Keyed.values types).map ResourceType.definition).map TypeDefinition.type =
        Keyed.values types := by
      rw [List.map_map]
      exact (List.map_congr_left hdeclared.type_definition).trans (List.map_id _)
    refine ⟨(Keyed.values types).map ResourceType.definition, ?_⟩
    rw [hdefine]
    exact ((ofJson_eq_ok_iff hdeclarations (List.Perm.refl _)).mp h).2

/-- **The types of a built schema are those that the builder accepted.** -/
theorem type?_of_build {types : List ResourceType} {s : Schema}
    (h : (SchemaBuilder.run types).builder.build = .ok s) (name : String) (t : ResourceType) :
    s.type? name = some t ↔ t ∈ (SchemaBuilder.run types).accepted ∧ t.name = name := by
  have hsound := SchemaBuilder.run_sound types
  obtain ⟨-, rfl⟩ := hsound.build_eq_ok_iff.mp h
  exact hsound.get?_eq_some_iff name t

/-- **A built schema is whole.** -/
theorem Built.whole {s : Schema} (h : s.Built) : s.Whole := by
  obtain ⟨definitions, hbuild⟩ := h
  have hsound := SchemaBuilder.run_sound (definitions.map TypeDefinition.type)
  have htype := type?_of_build hbuild
  obtain ⟨hclosed, -⟩ := hsound.build_eq_ok_iff.mp hbuild
  refine ⟨?_, ?_, ?_, ?_⟩
  · intro name t ht
    exact ((htype name t).mp ht).2
  · intro name t ht
    have hmem := (SchemaBuilder.accepted_sublist _).subset ((htype name t).mp ht).1
    obtain ⟨d, -, rfl⟩ := List.mem_map.mp hmem
    exact d.type_spec.2
  · intro name t ht
    exact hsound.disjoint t ((htype name t).mp ht).1
  · intro name t ht e he
    obtain ⟨target, hmem, hname, hinverse⟩ := hclosed t ((htype name t).mp ht).1 e he
    exact ⟨target, (htype e.2.target target).mpr ⟨hmem, hname⟩, hinverse⟩

end Schema

end GraphQuery
