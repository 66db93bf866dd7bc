/-
# What stands under a relationship

A row shows under a relationship what the resource stores there: no reference is passed over in
silence.  Either it leads to a resource, which has its row, or the query fails and names it.

* An error that names a dangling reference is true of the graph: one of its resources stores the
  reference under that name, and it leads nowhere (`Graph.Misses`).  So a graph whose references all
  resolve never yields the error.
* Under a relationship to many, a sub-query that keeps everything makes one row for each stored
  reference, in the order of the references unless it has one of its own (`exists_members`).

**`project_members`** states both.  The first is an instance of the bound on the errors of projection;
the second is about one entry of one row, whatever the row is made for, so it holds at every depth.
-/
import GraphQuery.Proofs.Engine.Lookup
import GraphQuery.Proofs.Engine.Growth

namespace GraphQuery

/-! ## 1. References that lead nowhere -/

/-- A resource of the graph, which is shown as `source`, stores the reference under the name, and
there is no resource that it leads to. -/
def Graph.Misses (g : Graph) (source : Ref) (name : String) (target : Ref) : Prop :=
  ∃ r links, g.Has r ∧ r.ref = source ∧ (name, links) ∈ r.links ∧ target ∈ links.refs ∧
    g.resolve? target = none

/-- If the error names a dangling reference, the graph has it. -/
def QueryError.NamesMissing (g : Graph) (err : QueryError) : Prop :=
  ∀ source name target, err = .danglingReference source name target → g.Misses source name target

/-- An error of a check is not about references. -/
theorem QueryError.namesMissing_of_isStatic {g : Graph} {err : QueryError}
    (h : err.isStatic = true) : err.NamesMissing g := by
  rintro source name target rfl
  cases h

/-- No clause of a query fails with a dangling reference. -/
theorem QueryOf.failsWithin_namesMissing (g : Graph) (t : OperatorTable) (q : Query) :
    q.FailsWithin (·.NamesMissing g) t := by
  have hslice : ∀ (order : List OrderKey) (slice : Slice),
      FailsOnly (·.NamesMissing g) (slice.check order) := fun order slice err herr =>
    QueryError.namesMissing_of_isStatic (slice.check_failsOnly order err herr)
  refine .of_slices ?_ (hslice _ _) fun g _ => hslice _ _
  rintro x source name target ⟨⟩

namespace Engine

variable {e : Engine}

theorem refsFailWithin_namesMissing : e.RefsFailWithin (·.NamesMissing e.graph) := by
  rintro r hr ⟨name, links⟩ hlinks ref href err herr
  obtain ⟨hnone, rfl⟩ := resolve_eq_error_iff.mp herr
  rintro _ _ _ ⟨⟩
  exact ⟨r, links, hr, rfl, hlinks, href, hnone⟩

/-- **Projection names only references that the graph has and that lead nowhere.** -/
theorem project_namesMissing (q : Query) : FailsOnly (·.NamesMissing e.graph) (e.project q) :=
  project_failsOnly_of (fun _ _ _ => nofun) refsFailWithin_namesMissing fun q' _ =>
    q'.failsWithin_namesMissing e.graph e.operators

/-- A graph whose references all resolve has no others. -/
theorem not_misses {g : Graph} (h : ∀ r, g.Has r → g.Resolves r) (source : Ref) (name : String)
    (target : Ref) : ¬ g.Misses source name target := by
  rintro ⟨r, links, hr, -, hlinks, htarget, hnone⟩
  have hsome := h r hr (name, links) hlinks target htarget
  rw [hnone] at hsome
  cases hsome

/-! ## 2. Entries of rows -/

/-- A key that is selected has been answered, and shows the answer if there is one. -/
theorem exists_entryOf_of_get? {select : Select} {r : Resource} {row : Row} {key : String}
    {s : Selection} (h : e.rowOf select r = .ok row) (hs : Keyed.get? key select = some s) :
    ∃ v?, e.entryOf key s r = .ok v? ∧ ∀ v, v? = some v → Keyed.get? key row = some v := by
  induction select generalizing row with
  | nil => cases hs
  | cons x rest ih =>
    obtain ⟨k, s'⟩ := x
    obtain ⟨v?, others, hv, hothers, rfl⟩ := rowOf_cons_eq_ok.mp h
    by_cases hk : k = key
    · subst hk
      obtain rfl : s' = s := Option.some.inj ((if_pos rfl).symm.trans hs)
      refine ⟨v?, hv, ?_⟩
      rintro v rfl
      exact if_pos rfl
    · obtain ⟨w?, hw, hshows⟩ := ih hothers ((if_neg hk).symm.trans hs)
      refine ⟨w?, hw, fun w hsome => ?_⟩
      cases v? with
      | none => exact hshows w hsome
      | some v => exact (if_neg hk).trans (hshows w hsome)

/-- References that all lead somewhere are followed one by one. -/
theorem map_resolve?_of_targets {r : Resource} {name : String} {refs : List Ref}
    {targets : List Resource} (h : refs.mapM (e.resolve r name) = .ok targets) :
    refs.map e.graph.resolve? = targets.map some := by
  rw [mapM_eq_ok_iff] at h
  induction h with
  | nil => rfl
  | cons hx _ ih => rw [List.map_cons, List.map_cons, resolve_eq_ok_iff.mp hx, ih]

/-! ## 3. Members -/

/-- The value lists one row for each reference that the resource stores under the name: of the
resources they lead to, those of `arranged`, which are all of them, each as often as it is
referred to. -/
def ShowsMembers (e : Engine) (sub : Query) (r : Resource) (name : String) (v : Value) : Prop :=
  ∃ (targets arranged : List Resource) (rows : List Row),
    (refsOf r name).map e.graph.resolve? = targets.map some ∧
      arranged.Perm targets ∧ (sub.order = [] → arranged = targets) ∧
        List.Forall₂ (fun target row => e.rowOf sub.select target = .ok row) arranged rows ∧
          v = .list (rows.map .map)

/-- **A sub-query that keeps everything shows every member.** -/
theorem exists_members {r : Resource} {name : String} {sub : Query} {v? : Option Value}
    (h : e.entryOf name (.subquery sub) r = .ok v?) (hfilter : sub.filter = none)
    (hslice : sub.slice = {}) (hgroups : sub.groups = [])
    (hmany : e.isMany r.typeName name = true) : ∃ v, v? = some v ∧ e.ShowsMembers sub r name v := by
  obtain ⟨v, hsome, hcases⟩ := entryOf_subquery_cases h
  refine ⟨v, hsome, ?_⟩
  rcases hcases with ⟨-, targets, htargets, hcollect⟩ | ⟨hone, -⟩ | ⟨hone, -⟩
  · have hall : e.accepted sub.filter targets = .ok targets := hfilter ▸ accepted_none targets
    rw [collect_ungrouped (e.rowOf sub.select) hslice hgroups hall] at hcollect
    obtain ⟨rows, hrows, rfl⟩ := map_eq_ok.mp hcollect
    obtain ⟨sorted, hsorted, hrows⟩ := bind_eq_ok.mp hrows
    obtain ⟨-, rfl⟩ := sortSettled_eq_ok_iff.mp hsorted
    refine ⟨targets, _, rows, map_resolve?_of_targets htargets, sortItems_perm _ _ _, ?_,
      mapM_eq_ok_iff.mp hrows, rfl⟩
    intro horder
    rw [horder, sortItems_nil]
  · rw [hmany] at hone
    cases hone
  · rw [hmany] at hone
    cases hone

/-- **What stands under a relationship.**  If projection fails with a dangling reference, the graph
has it, so this never happens where all references resolve.  In every row that is made for a
resource, a sub-query without filter, slice and groups under a relationship that the type of the
resource declares as one to many shows one row for each stored reference: all of them resolve, none
is left out or merged with another, and without an order they stand as they are stored. -/
theorem project_members (e : Engine) (q : Query) :
    (∀ source name target, e.project q = .error (.danglingReference source name target) →
        e.graph.Misses source name target) ∧
      ((∀ r, e.graph.Has r → e.graph.Resolves r) →
        ∀ source name target, e.project q ≠ .error (.danglingReference source name target)) ∧
      ∀ select r row, e.rowOf select r = .ok row →
        ∀ name sub rel, Keyed.get? name select = some (.subquery sub) → sub.filter = none →
          sub.slice = {} → sub.groups = [] → e.schema.relationship? r.typeName name = some rel →
            rel.isMany = true → ∃ v, Keyed.get? name row = some v ∧ e.ShowsMembers sub r name v := by
  have hmisses : ∀ source name target,
      e.project q = .error (.danglingReference source name target) →
        e.graph.Misses source name target :=
    fun source name target herror => project_namesMissing q _ herror source name target rfl
  refine ⟨hmisses, ?_, ?_⟩
  · intro hresolves source name target herror
    exact not_misses hresolves source name target (hmisses source name target herror)
  · intro select r row hrow name sub rel hsub hfilter hslice hgroups hrel hmany
    have hmany : e.isMany r.typeName name = true := by
      rw [isMany, hrel]
      exact hmany
    obtain ⟨v?, hentry, hshows⟩ := exists_entryOf_of_get? hrow hsub
    obtain ⟨v, rfl, hmembers⟩ := exists_members hentry hfilter hslice hgroups hmany
    exact ⟨v, hshows v rfl, hmembers⟩

/-- A person who has one friend twice over and is her own friend. -/
def popular : Resource where
  id := "ann"
  typeName := "Person"
  attributes := [("name", .string "Ann")]
  links := [("friends", .many [⟨"Person", "bob"⟩, ⟨"Person", "ann"⟩, ⟨"Person", "bob"⟩])]

/-- The office with her. -/
def crowd : Engine := office.withGraph {
  resources := [("Person", [
    ("ann", popular),
    ("bob", { id := "bob", typeName := "Person", attributes := [("name", .string "Bob")] })])]
  index := ⟨[("Person", ["ann", "bob"])]⟩ }

/-- The names of friends. -/
def friendNames : Query := { typeName := "Person", select := [("name", .field "name")] }

/-- The row of a person with the names of her friends. -/
def popularRow : Row := [("friends", .list
  [.map [("name", .string "Bob")], .map [("name", .string "Ann")], .map [("name", .string "Bob")]])]

theorem project_members_crowd :
    people.graph.Misses ⟨"Person", "ann"⟩ "friends" ⟨"Person", "bob"⟩ ∧
      (∀ source name target,
        crowd.project annQuery ≠ .error (.danglingReference source name target)) ∧
      crowd.project annQuery = .ok (.map popularRow) ∧
      crowd.rowOf annQuery.select popular = .ok popularRow ∧
      ∃ v, Keyed.get? "friends" popularRow = some v ∧
        crowd.ShowsMembers friendNames popular "friends" v := by
  have hdangling : people.project Dialect.peopleQuery =
      .error (.danglingReference ⟨"Person", "ann"⟩ "friends" ⟨"Person", "bob"⟩) := by decide +kernel
  have hresolves : ∀ r, crowd.graph.Has r → crowd.graph.Resolves r := by
    have hall : ∀ byId ∈ crowd.graph.resources, ∀ entry ∈ byId.2,
        crowd.graph.Resolves entry.2 := by
      unfold Graph.Resolves
      decide +kernel
    intro r hr
    obtain ⟨byId, hbyId, entry, hentry, rfl⟩ := hr.exists_mem
    exact hall byId hbyId entry hentry
  have hproject : crowd.project annQuery = .ok (.map popularRow) := by decide +kernel
  have hrow : crowd.rowOf annQuery.select popular = .ok popularRow := by decide +kernel
  have hrel : crowd.schema.relationship? popular.typeName "friends" =
      some ⟨"friends", "Person", .many, none⟩ := by decide +kernel
  obtain ⟨hmisses, -⟩ := project_members people Dialect.peopleQuery
  obtain ⟨-, hnever, hmembers⟩ := project_members crowd annQuery
  exact ⟨hmisses _ _ _ hdangling, hnever hresolves, hproject, hrow,
    hmembers _ popular _ hrow "friends" friendNames _ rfl rfl rfl rfl hrel rfl⟩

end Engine

end GraphQuery
