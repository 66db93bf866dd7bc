/-
# Queries on a graph that grows

A resource is reached in two ways: the root of a query is looked up or scanned by its type, and all
others are reached by references.  A reference that leads to a resource leads to the same one in a
larger graph, so below the root a larger graph can only turn a dangling reference into a resource.

The steps of a query on the two graphs are compared one by one (`SameUnless`): from the same
resources they go on to the same resources, unless the smaller graph stops at a dangling reference.

* `sameUnless_entryOf` is the induction down the selection, for all sub-queries and any graph that
  extends the other.
* **`execute_insert`: an insertion that the root of a query does not ask for leaves its outcome as it
  is, unless that was a dangling reference.**
-/
import GraphQuery.Proofs.Engine.Shape

namespace GraphQuery

/-- The error says that a reference leads nowhere. -/
inductive QueryError.IsDangling : QueryError → Prop
  | intro {source : Ref} {relationship : String} {target : Ref} :
      IsDangling (.danglingReference source relationship target)

/-- The root of the query asks for the resource: for all of its type, or for its id. -/
def QueryOf.AsksFor {σ : Type} (q : QueryOf σ) (r : Resource) : Prop :=
  r.typeName = q.typeName ∧ ∀ id, q.id = some id → r.id = id

namespace Engine

open QueryError (IsDangling)

/-- The engine on another graph. -/
def withGraph (e : Engine) (g : Graph) : Engine := { e with graph := g }

variable {e : Engine} {g : Graph}

/-! ## 1. References and views -/

theorem sameUnless_resolve (h : g.Extends e.graph) (r : Resource) (name : String) (target : Ref) :
    SameUnless IsDangling (e.resolve r name target) ((e.withGraph g).resolve r name target) := by
  unfold resolve
  cases hfound : e.graph.resolve? target with
  | none => exact .error .intro
  | some found =>
    rw [show (e.withGraph g).graph.resolve? target = some found from h _ _ hfound]
    exact .refl

theorem sameUnless_linkedValue (h : g.Extends e.graph) (r : Resource) (name : String)
    (links : Links) :
    SameUnless IsDangling (e.linkedValue r name links) ((e.withGraph g).linkedValue r name links) := by
  cases links with
  | many targets =>
    exact (SameUnless.mapM fun target _ => sameUnless_resolve h r name target).bind_same
  | one target? =>
    cases target? with
    | none => exact .refl
    | some target => exact (sameUnless_resolve h r name target).bind_same

theorem sameUnless_view (h : g.Extends e.graph) (r : Resource) :
    SameUnless IsDangling (e.view r) ((e.withGraph g).view r) :=
  SameUnless.bind_same <| SameUnless.mapM fun l _ =>
    (sameUnless_linkedValue h r l.1 l.2).bind_same

/-! ## 2. Collections -/

theorem sameUnless_accepts (h : g.Extends e.graph) (filter : Option Filter) (r : Resource) :
    SameUnless IsDangling (e.accepts filter r) ((e.withGraph g).accepts filter r) := by
  cases filter with
  | none => exact .refl
  | some f => exact (sameUnless_view h r).bind_same

theorem sameUnless_accepted (h : g.Extends e.graph) (filter : Option Filter)
    (rs : List Resource) :
    SameUnless IsDangling (e.accepted filter rs) ((e.withGraph g).accepted filter rs) := by
  induction rs with
  | nil => exact .refl
  | cons r rest ih =>
    rw [accepted, accepted]
    exact (sameUnless_accepts h filter r).bind fun _ _ => ih.bind_same

/-- A collection comes out the same if the rows of its resources do. -/
theorem sameUnless_collect (h : g.Extends e.graph) {f f' : Resource → Except QueryError Row}
    (hrows : ∀ r, SameUnless IsDangling (f r) (f' r)) (q : Query) (rs : List Resource) :
    SameUnless IsDangling (e.collect f q rs) ((e.withGraph g).collect f' q rs) := by
  have hchosen : SameUnless IsDangling (e.chosen q rs) ((e.withGraph g).chosen q rs) :=
    (sameUnless_accepted h q.filter rs).bind_same
  exact hchosen.bind fun kept _ => (SameUnless.mapM fun r _ => hrows r).bind_same

/-! ## 3. Rows -/

mutual
/-- **A row comes out the same**, whatever its selection asks for. -/
theorem sameUnless_rowOf (h : g.Extends e.graph) :
    (select : List (String × Selection)) → ∀ r : Resource,
      SameUnless IsDangling (e.rowOf select r) ((e.withGraph g).rowOf select r)
  | [], r => by
    rw [rowOf, rowOf]
    exact .refl
  | (key, s) :: rest, r => by
    rw [rowOf, rowOf]
    exact (sameUnless_entryOf h key s r).bind fun _ _ => (sameUnless_rowOf h rest r).bind_same
termination_by structural select => select
theorem sameUnless_entryOf (h : g.Extends e.graph) (key : String) :
    (s : Selection) → ∀ r : Resource,
      SameUnless IsDangling (e.entryOf key s r) ((e.withGraph g).entryOf key s r)
  | .field source, r => by
    rw [entryOf, entryOf]
    exact .refl
  | .expression x, r => by
    rw [entryOf, entryOf]
    exact (sameUnless_view h r).bind_same
  | .subquery ⟨typeName, id, select, filter, order, slice, groups⟩, r => by
    rw [entryOf, entryOf, show (e.withGraph g).isMany = e.isMany from rfl]
    by_cases hmany : e.isMany r.typeName key = true
    · rw [if_pos hmany, if_pos hmany]
      refine (SameUnless.mapM fun ref _ => sameUnless_resolve h r key ref).bind fun targets _ => ?_
      exact (sameUnless_collect h (fun target => sameUnless_rowOf h select target) _ _).bind_same
    · rw [if_neg hmany, if_neg hmany]
      cases (refsOf r key).head? with
      | none => exact .refl
      | some ref =>
        refine (sameUnless_resolve h r key ref).bind fun target _ => ?_
        refine (sameUnless_accepts h filter target).bind fun kept _ => ?_
        cases kept with
        | false => exact .refl
        | true => exact (sameUnless_rowOf h select target).bind_same
termination_by structural s => s
end

/-! ## 4. Queries -/

/-- An insertion that a query does not ask for leaves the resources of its root as they are. -/
theorem sameUnless_project {r : Resource} (h : e.graph.insert r = .ok g) {q : Query}
    (hroot : ¬ q.AsksFor r) :
    SameUnless IsDangling (e.project q) ((e.withGraph g).project q) := by
  have hextends := Graph.extends_of_insert h
  unfold project
  cases hid : q.id with
  | none =>
    have hne : r.typeName ≠ q.typeName := fun htype =>
      hroot ⟨htype, fun _ hsome => by rw [hid] at hsome; cases hsome⟩
    rw [show (e.withGraph g).graph.scan q.typeName = e.graph.scan q.typeName from
      Graph.scan_insert_of_ne h hne]
    exact sameUnless_collect hextends (sameUnless_rowOf hextends q.select) _ _
  | some id =>
    have hne : r.ref ≠ ⟨q.typeName, id⟩ := by
      intro href
      obtain ⟨htype, hrid⟩ := Ref.mk.inj href
      refine hroot ⟨htype, fun id' hsome => ?_⟩
      rw [hid] at hsome
      exact hrid.trans (Option.some.inj hsome)
    have hget : (e.withGraph g).graph.get? q.typeName id = e.graph.get? q.typeName id :=
      (Graph.get?_insert h q.typeName id).trans (if_neg hne)
    dsimp only
    rw [hget]
    cases e.graph.get? q.typeName id with
    | none => exact .refl
    | some found => exact (sameUnless_rowOf hextends q.select found).bind_same

theorem sameUnless_run {r : Resource} (h : e.graph.insert r = .ok g) {q : Query}
    (hroot : ¬ q.AsksFor r) : SameUnless IsDangling (e.run q) ((e.withGraph g).run q) :=
  SameUnless.refl.bind fun _ _ => sameUnless_project h hroot

/-- **Writes elsewhere do not disturb a query.**  After an insertion that the root of the query does
not ask for, the query and its documents come out as before, with a result or an error, unless they
came out with a dangling reference. -/
theorem execute_insert (e : Engine) (r : Resource) (g : Graph) (h : e.graph.insert r = .ok g)
    (q : Query) (hroot : ¬ q.AsksFor r)
    (hdangling : ∀ source name target, e.run q ≠ .error (.danglingReference source name target)) :
    (e.withGraph g).run q = e.run q ∧
      ∀ document, e.normalize document = .ok q →
        (e.withGraph g).execute document = e.execute document := by
  have hrun : (e.withGraph g).run q = e.run q := by
    refine (sameUnless_run h hroot).eq ?_
    rintro _ ⟨⟩
    exact hdangling _ _ _
  refine ⟨hrun, fun document hq => ?_⟩
  have hq' : (e.withGraph g).normalize document = .ok q := hq
  rw [execute, execute, hq, hq', ok_bind, ok_bind]
  exact hrun

/-- Ann with her friends. -/
def annDocument : Value := .map [
  ("id", .string "ann"), ("select", .map [("friends", .map [("select", .string "name")])]),
  ("type", .string "Person")]

/-- The query for her. -/
def annQuery : Query where
  typeName := "Person"
  id := some "ann"
  select := [("friends", .subquery { typeName := "Person", select := [("name", .field "name")] })]

/-- Her row. -/
def annRow : Value := .map [("friends", .list [.map [("name", .string "Bob")]])]

/-- A new person, who points at Ann and at someone who is not there. -/
def newcomer : Resource where
  id := "cid"
  typeName := "Person"
  links := [("boss", .one (some ⟨"Person", "ann"⟩)), ("friends", .many [⟨"Person", "dan"⟩])]

/-- The graph of the office with the new person. -/
def grownGraph : Graph where
  resources := [("Person", office.graph.ofType "Person" ++ [("cid", newcomer)])]
  index := ⟨[("Person", ["ann", "bob", "cid"])]⟩

theorem execute_insert_office :
    office.graph.insert newcomer = .ok grownGraph ∧ ¬ annQuery.AsksFor newcomer ∧
      office.run annQuery = .ok annRow ∧ office.normalize annDocument = .ok annQuery ∧
        (office.withGraph grownGraph).run annQuery = office.run annQuery ∧
          (office.withGraph grownGraph).execute annDocument = office.execute annDocument := by
  have hinsert : office.graph.insert newcomer = .ok grownGraph := by decide +kernel
  have hroot : ¬ annQuery.AsksFor newcomer := fun h => absurd (h.2 "ann" rfl) (by decide)
  have hrun : office.run annQuery = .ok annRow := by decide +kernel
  have hq : office.normalize annDocument = .ok annQuery := by decide +kernel
  obtain ⟨hsame, hdocuments⟩ := execute_insert office newcomer grownGraph hinsert annQuery hroot
    fun _ _ _ herror => by rw [hrun] at herror; cases herror
  exact ⟨hinsert, hroot, hrun, hq, hsame, hdocuments annDocument hq⟩

end Engine

end GraphQuery
