/-
# What a graph holds

A graph has two parts that must stay in step: the resources by type and id, and the index that
says in which order they came.  A scan passes over an id that is listed in one and missing in the
other without an error, so a drift would lose resources silently.

`Graph.Holds g rs` says what the two parts come to for a caller: `g` holds exactly the resources
`rs`, which came in this order.  A lookup finds the one resource with the type and the id, a scan
gives those of a type in order, and a call that adds a resource is refused exactly if its type and id
are taken.

* `History` follows a run of calls and notes which resources came in.  It goes on with the graph that a
  call leaves, also where the call is refused, so that what a refused call leaves is something to be
  proved (`History.put_of_error`).
* A call keeps what holds of a history (`History.Sound.put`), so every run has it (`run_sound`).
* A graph document is loaded by such a run, in which nothing is refused, because the keys of a
  document are distinct (`ofStored_eq`).

**`runs_hold`** states all of this.
-/
import GraphQuery.Proofs.Graph.Store
import GraphQuery.Proofs.Json.Record
import Mathlib.Data.List.Induction

namespace GraphQuery.Graph

variable {g g' : Graph} {r : Resource} {rs : List Resource}

/-! ## 1. The resources of a graph -/

/-- The graph holds exactly the given resources, which came in this order. -/
structure Holds (g : Graph) (rs : List Resource) : Prop where
  distinct : (rs.map Resource.ref).Nodup
  put_eq_error_iff : ∀ r e, (g.put r).1 = .error e ↔
    r.ref ∈ rs.map Resource.ref ∧ e = .duplicateResource r.typeName r.id
  insert_eq_error_iff : ∀ r e, g.insert r = .error e ↔
    r.ref ∈ rs.map Resource.ref ∧ e = .duplicateResource r.typeName r.id
  get?_eq_some_iff : ∀ typeName id r, g.get? typeName id = some r ↔ r ∈ rs ∧ r.ref = ⟨typeName, id⟩
  resolve?_eq_some_iff : ∀ target r, g.resolve? target = some r ↔ r ∈ rs ∧ r.ref = target
  scan_eq : ∀ typeName, g.scan typeName = rs.filter fun r => r.typeName = typeName

/-- Lookups decide what is refused. -/
theorem put_eq_error {e : GraphError} :
    (g.put r).1 = .error e ↔
      (∃ found, g.get? r.typeName r.id = some found) ∧ e = .duplicateResource r.typeName r.id := by
  rw [put_eq]
  cases g.get? r.typeName r.id with
  | none => simp
  | some found => simp [eq_comm]

theorem Holds.of_lookups (distinct : (rs.map Resource.ref).Nodup)
    (get?_eq_some_iff : ∀ typeName id r,
      g.get? typeName id = some r ↔ r ∈ rs ∧ r.ref = ⟨typeName, id⟩)
    (scan_eq : ∀ typeName, g.scan typeName = rs.filter fun r => r.typeName = typeName) :
    g.Holds rs := by
  have hput : ∀ r e, (g.put r).1 = .error e ↔
      r.ref ∈ rs.map Resource.ref ∧ e = .duplicateResource r.typeName r.id := by
    intro r e
    rw [put_eq_error]
    simp only [get?_eq_some_iff, List.mem_map]
    rfl
  refine ⟨distinct, hput, ?_, get?_eq_some_iff, ?_, scan_eq⟩
  · intro r e
    rw [insert, map_eq_error]
    exact hput r e
  · intro target r
    exact get?_eq_some_iff target.typeName target.id r

theorem holds_empty : empty.Holds [] := by
  refine .of_lookups List.nodup_nil ?_ ?_
  · intro typeName id r
    constructor
    · intro h
      cases h
    · intro h
      exact absurd h.1 List.not_mem_nil
  · intro typeName
    rfl

theorem Holds.insert_eq_ok_iff_notMem (h : g.Holds rs) :
    (∃ g', g.insert r = .ok g') ↔ r.ref ∉ rs.map Resource.ref := by
  cases hr : g.insert r with
  | ok g' =>
    refine ⟨fun _ hmem => ?_, fun _ => ⟨g', rfl⟩⟩
    have := (h.insert_eq_error_iff r _).mpr ⟨hmem, rfl⟩
    rw [hr] at this
    cases this
  | error e =>
    refine ⟨fun ⟨_, hok⟩ => ?_, fun hmem => ?_⟩
    · cases hok
    · exact absurd ((h.insert_eq_error_iff r e).mp hr).1 hmem

/-- **An insertion puts the new resource behind those that are held.** -/
theorem Holds.insert (h : g.Holds rs) (hg : g.Built) (hr : g.insert r = .ok g') :
    g'.Holds (rs ++ [r]) := by
  have hnew : r.ref ∉ rs.map Resource.ref := h.insert_eq_ok_iff_notMem.mp ⟨g', hr⟩
  refine .of_lookups ?_ ?_ ?_
  · rw [List.map_append, List.map_singleton]
    rw [← List.concat_eq_append, List.nodup_concat]
    exact ⟨hnew, h.distinct⟩
  · intro typeName id found
    rw [get?_insert hr, List.mem_append, List.mem_singleton]
    split
    · next href =>
      constructor
      · intro heq
        obtain rfl := Option.some.inj heq
        exact ⟨Or.inr rfl, href⟩
      · rintro ⟨hmem | rfl, hfound⟩
        · exact absurd (List.mem_map.mpr ⟨found, hmem, hfound.trans href.symm⟩) hnew
        · rfl
    · next href =>
      rw [h.get?_eq_some_iff]
      constructor
      · rintro ⟨hmem, hfound⟩
        exact ⟨Or.inl hmem, hfound⟩
      · rintro ⟨hmem | rfl, hfound⟩
        · exact ⟨hmem, hfound⟩
        · exact absurd hfound href
  · intro typeName
    rw [List.filter_append]
    by_cases htype : r.typeName = typeName
    · subst htype
      rw [hg.scan_insert hr, h.scan_eq]
      simp
    · rw [scan_insert_of_ne hr htype, h.scan_eq]
      simp [htype]

/-! ## 2. Runs of insertions -/

/-- A graph, and the resources that came in on the way to it, in order. -/
structure History where
  graph : Graph := empty
  inserted : List Resource := []

/-- A resource is to be added.  The run goes on with the graph that the call leaves. -/
def History.put (x : History) (r : Resource) : History where
  graph := (x.graph.put r).2
  inserted :=
    match (x.graph.put r).1 with
    | .ok _ => x.inserted ++ [r]
    | .error _ => x.inserted

/-- Resources are to be added one after the other, from the empty graph on. -/
def run (calls : List Resource) : History := calls.foldl History.put {}

theorem run_concat (calls : List Resource) (r : Resource) :
    run (calls ++ [r]) = (run calls).put r := List.foldl_concat ..

/-- The graph of a history is built, and it holds what came in. -/
structure History.Sound (x : History) : Prop where
  built : x.graph.Built
  holds : x.graph.Holds x.inserted

theorem History.put_of_ok {x : History} (h : x.graph.insert r = .ok g) :
    x.put r = ⟨g, x.inserted ++ [r]⟩ := by
  rw [put, insert_eq_ok_iff_put.mp h]

/-- **A refused call changes nothing**, since the graph that it leaves is the one before. -/
theorem History.put_of_error {x : History} {e : GraphError} (h : (x.graph.put r).1 = .error e) :
    x.put r = x := by
  rw [put, h, Graph.put_of_error h]

theorem History.Sound.put {x : History} (h : x.Sound) (r : Resource) : (x.put r).Sound := by
  cases hr : x.graph.insert r with
  | ok g =>
    rw [History.put_of_ok hr]
    exact ⟨h.built.insert hr, h.holds.insert h.built hr⟩
  | error e =>
    rw [History.put_of_error (map_eq_error.mp hr)]
    exact h

/-- **After every run the graph holds what came in.** -/
theorem run_sound (calls : List Resource) : (run calls).Sound := by
  induction calls using List.reverseRecOn with
  | nil => exact ⟨.empty, holds_empty⟩
  | append_singleton calls r ih =>
    rw [run_concat]
    exact ih.put r

/-- **A refused call leaves no trace** in anything that comes later. -/
theorem run_of_refused {calls : List Resource} {e : GraphError}
    (h : ((run calls).graph.put r).1 = .error e) (later : List Resource) :
    run (calls ++ r :: later) = run (calls ++ later) := by
  have hsame : (run calls).put r = run calls := History.put_of_error h
  rw [run, List.foldl_append, List.foldl_cons]
  rw [run, List.foldl_append]
  exact congrArg (later.foldl History.put) hsame

/-- Resources with types and ids of their own all come in. -/
theorem inserted_run_of_distinct (h : (rs.map Resource.ref).Nodup) : (run rs).inserted = rs := by
  induction rs using List.reverseRecOn with
  | nil => rfl
  | append_singleton rs r ih =>
    rw [List.map_append, List.map_singleton, ← List.concat_eq_append, List.nodup_concat] at h
    have ih := ih h.2
    have hnew : r.ref ∉ (run rs).inserted.map Resource.ref := by
      rw [ih]
      exact h.1
    obtain ⟨g, hr⟩ := (run_sound rs).holds.insert_eq_ok_iff_notMem.mpr hnew
    rw [run_concat, History.put_of_ok hr, ih]

/-! ## 3. Documents are loaded by runs -/

/-- The stored resources of a graph document, each with the type and the key under which it
stands, in the order of the document. -/
def storedEntries (types : List (String × List (String × StoredResource))) :
    List (Ref × StoredResource) :=
  types.flatMap fun t => t.2.map fun e => (⟨t.1, e.1⟩, e.2)

/-- The resource of a stored entry. -/
def entryResource (e : Ref × StoredResource) : Except GraphError Resource :=
  e.2.toResource e.1.typeName e.1.id

/-- A stored resource gets the type and the key under which it stands, or is refused for another
reason than that they are taken. -/
theorem entryResource_cases (e : Ref × StoredResource) :
    (∃ r, entryResource e = .ok r ∧ r.ref = e.1) ∨
      ∃ err, entryResource e = .error err ∧ ∀ typeName id, err ≠ .duplicateResource typeName id := by
  obtain ⟨⟨typeName, key⟩, s⟩ := e
  simp only [entryResource, StoredResource.toResource]
  split
  · split
    · exact Or.inr ⟨_, rfl, by simp⟩
    · split
      · exact Or.inr ⟨_, rfl, by simp⟩
      · next hkey => exact Or.inl ⟨_, rfl, by rw [not_not.mp hkey]; rfl⟩
  · split
    · exact Or.inr ⟨_, rfl, by simp⟩
    · next hkey => exact Or.inl ⟨_, rfl, by rw [not_not.mp hkey]; rfl⟩

theorem ref_of_entryResource {e : Ref × StoredResource} (h : entryResource e = .ok r) :
    r.ref = e.1 := by
  rcases entryResource_cases e with ⟨s, hs, href⟩ | ⟨err, herr, -⟩
  · rw [h] at hs
    exact Except.ok.inj hs ▸ href
  · rw [h] at herr
    cases herr

theorem ofStored_eq_foldlM (types : List (String × List (String × StoredResource))) :
    ofStored types =
      (storedEntries types).foldlM (fun g e => do g.insert (← entryResource e)) empty := by
  rw [ofStored]
  generalize empty = g
  induction types generalizing g with
  | nil => rfl
  | cons t rest ih =>
    rw [storedEntries, List.flatMap_cons, List.foldlM_append, List.foldlM_map, List.foldlM_cons]
    exact bind_congr fun g => ih g

/-- Entries with references of their own, none of them taken, are loaded by a run. -/
theorem foldlM_insert_eq {es : List (Ref × StoredResource)} {before : List Resource}
    (h : (before.map Resource.ref ++ es.map Prod.fst).Nodup) :
    es.foldlM (fun g e => do g.insert (← entryResource e)) (run before).graph =
      (es.mapM entryResource).map fun rs => (run (before ++ rs)).graph := by
  induction es generalizing before with
  | nil => simp [pure, Except.pure, Except.map]
  | cons e rest ih =>
    rw [List.foldlM_cons, List.mapM_cons]
    cases he : entryResource e with
    | error err => rfl
    | ok r =>
      have href : r.ref = e.1 := ref_of_entryResource he
      have hmove : ((before ++ [r]).map Resource.ref ++ rest.map Prod.fst).Nodup := by
        simpa [href] using h
      have hbefore : (run before).inserted = before :=
        inserted_run_of_distinct (List.Nodup.of_append_left h)
      have hnew : r.ref ∉ (run before).inserted.map Resource.ref := by
        rw [hbefore, href]
        rw [List.map_cons] at h
        exact fun hmem => List.disjoint_of_nodup_append h hmem List.mem_cons_self
      obtain ⟨g, hr⟩ := (run_sound before).holds.insert_eq_ok_iff_notMem.mpr hnew
      have hg : g = (run (before ++ [r])).graph := by
        rw [run_concat, History.put_of_ok hr]
      simp only [ok_bind, hr, hg, ih hmove]
      cases rest.mapM entryResource with
      | error err => rfl
      | ok rs => simp [Except.map, bind, Except.bind, pure, Except.pure]

theorem ofStored_eq {types : List (String × List (String × StoredResource))}
    (h : ((storedEntries types).map Prod.fst).Nodup) :
    ofStored types = ((storedEntries types).mapM entryResource).map fun rs => (run rs).graph := by
  rw [ofStored_eq_foldlM]
  exact @foldlM_insert_eq _ [] h

/-! ## 4. The order of a document -/

/-- The one reference comes before the other: by type, then by id. -/
def RefBefore (a b : Ref) : Prop :=
  a.typeName < b.typeName ∨ a.typeName = b.typeName ∧ a.id < b.id

theorem RefBefore.ne {a b : Ref} (h : RefBefore a b) : a ≠ b := by
  rintro rfl
  rcases h with h | ⟨-, h⟩
  · exact String.lt_irrefl _ h
  · exact String.lt_irrefl _ h

/-- A document gives its resources in the order of types and keys. -/
theorem storedEntries_before {j : Json} {types : List (String × List (String × StoredResource))}
    (h : stored? j = some types) : ((storedEntries types).map Prod.fst).Pairwise RefBefore := by
  obtain ⟨hsorted, hread⟩ := Json.map?_eq_some h
  have hinner : ∀ t ∈ types, Keyed.Sorted t.2 := by
    intro t ht
    obtain ⟨source, hsource⟩ := hread t ht
    exact (Json.map?_eq_some hsource).1
  rw [storedEntries, List.map_flatMap, List.pairwise_flatMap]
  constructor
  · intro t ht
    rw [List.map_map]
    exact (List.pairwise_map.mp (hinner t ht)).map _ fun a b hab => Or.inr ⟨rfl, hab⟩
  · refine (List.pairwise_map.mp hsorted).imp fun {t u} htu a ha b hb => ?_
    simp only [List.map_map, List.mem_map] at ha hb
    obtain ⟨e, -, rfl⟩ := ha
    obtain ⟨f, -, rfl⟩ := hb
    exact Or.inl htu

/-- In a scan of a graph whose resources came in the order of types and ids, the ids increase. -/
theorem Holds.scan_sorted (h : g.Holds rs) (hbefore : (rs.map Resource.ref).Pairwise RefBefore)
    (typeName : String) : ((g.scan typeName).map Resource.id).Pairwise (· < ·) := by
  rw [h.scan_eq, List.pairwise_map]
  refine ((List.pairwise_map.mp hbefore).filter _).imp_of_mem fun {r s} hr hs hrs => ?_
  have hr := of_decide_eq_true (List.mem_filter.mp hr).2
  have hs := of_decide_eq_true (List.mem_filter.mp hs).2
  rcases hrs with hlt | ⟨-, hlt⟩
  · exact absurd (hr.trans hs.symm) (String.ne_of_lt hlt)
  · exact hlt

/-- A book. -/
def emma : Resource where
  id := "1"
  typeName := "Book"
  attributes := [("title", .string "Emma")]

/-- Another book under the same id. -/
def otherEmma : Resource where
  id := "1"
  typeName := "Book"

/-- A shelf of books, not in the order of their ids. -/
def shelf : Json := .object [
  ("Book", .object [
    ("2", .object [("id", .integer 2)]),
    ("1", .object [("attributes", .object [("title", .string "Emma")]), ("type", .string "Book")])])]

/-- **What a graph holds.**  After every run of calls the graph holds exactly the resources that came
in, and a graph to which a resource was added is that of the run with one more call.  A refused call
leaves the graph as it was, and no trace in anything that comes later.  A document that is accepted
gives the graph of a run of its own resources, all of which come in, in the order of types and ids, so
that every scan is in the order of ids.  No document is refused because type and id are taken. -/
theorem runs_hold :
    (∀ calls, (run calls).graph.Built ∧ (run calls).graph.Holds (run calls).inserted ∧
      (∀ r g, (run calls).graph.insert r = .ok g →
        run (calls ++ [r]) = ⟨g, (run calls).inserted ++ [r]⟩) ∧
      ∀ r e, ((run calls).graph.put r).1 = .error e →
        ((run calls).graph.put r).2 = (run calls).graph ∧
          ∀ later, run (calls ++ r :: later) = run (calls ++ later)) ∧
    ∀ j, (∀ typeName id, ofJson j ≠ .error (.duplicateResource typeName id)) ∧
      ∀ g, ofJson j = .ok g → ∃ types rs, stored? j = some types ∧
        (storedEntries types).mapM entryResource = .ok rs ∧ run rs = ⟨g, rs⟩ ∧ g.Holds rs ∧
        (rs.map Resource.ref).Pairwise RefBefore ∧
        ∀ typeName, ((g.scan typeName).map Resource.id).Pairwise (· < ·) := by
  refine ⟨fun calls => ⟨(run_sound calls).built, (run_sound calls).holds, ?_, ?_⟩, ?_⟩
  · intro r g h
    rw [run_concat, History.put_of_ok h]
  · intro r e h
    exact ⟨Graph.put_of_error h, run_of_refused h⟩
  intro j
  rw [ofJson]
  cases hstored : stored? j with
  | none =>
    constructor
    · intro typeName id h
      cases h
    · intro g h
      cases h
  | some types =>
    have hbefore := storedEntries_before hstored
    have hdistinct : ((storedEntries types).map Prod.fst).Nodup := hbefore.imp RefBefore.ne
    dsimp only
    rw [ofStored_eq hdistinct]
    constructor
    · intro typeName id h
      obtain ⟨e, -, he⟩ := exists_error_of_mapM (map_eq_error.mp h)
      rcases entryResource_cases e with ⟨r, hr, -⟩ | ⟨err, herr, hne⟩
      · rw [he] at hr
        cases hr
      · rw [he] at herr
        exact hne typeName id (Except.error.inj herr).symm
    · intro g h
      obtain ⟨rs, hrs, rfl⟩ := map_eq_ok.mp h
      have hrefs : rs.map Resource.ref = (storedEntries types).map Prod.fst :=
        map_eq_of_mapM hrs fun e r he => ref_of_entryResource he
      rw [← hrefs] at hbefore hdistinct
      have hinserted : (run rs).inserted = rs := inserted_run_of_distinct hdistinct
      have hholds : (run rs).graph.Holds rs := by
        have := (run_sound rs).holds
        rwa [hinserted] at this
      refine ⟨types, rs, rfl, hrs, ?_, hholds, hbefore, hholds.scan_sorted hbefore⟩
      calc
        run rs = ⟨(run rs).graph, (run rs).inserted⟩ := rfl
        _ = ⟨(run rs).graph, rs⟩ := by rw [hinserted]

theorem runs_hold_shelf :
    ((run [emma]).graph.put otherEmma).1 = .error (.duplicateResource "Book" "1") ∧
      ((run [emma]).graph.put otherEmma).2 = (run [emma]).graph ∧
      run ([emma] ++ otherEmma :: [⟨"2", "Book", [], []⟩]) =
        run ([emma] ++ [⟨"2", "Book", [], []⟩]) ∧
      (run [emma, ⟨"2", "Book", [], []⟩]).graph.Holds [emma, ⟨"2", "Book", [], []⟩] ∧
      ∃ g, ofJson shelf = .ok g ∧ (g.scan "Book").map Resource.id = ["1", "2"] ∧
        ((g.scan "Book").map Resource.id).Pairwise (· < ·) := by
  obtain ⟨hruns, hdocuments⟩ := runs_hold
  have hrefused : ((run [emma]).graph.put otherEmma).1 =
      .error (.duplicateResource "Book" "1") := by decide +kernel
  have hshelf : ofJson shelf = .ok (run [emma, ⟨"2", "Book", [], []⟩]).graph := by decide +kernel
  obtain ⟨types, rs, -, -, -, -, -, hscan⟩ := (hdocuments shelf).2 _ hshelf
  obtain ⟨-, -, -, hleft⟩ := hruns [emma]
  obtain ⟨hsame, hlater⟩ := hleft otherEmma _ hrefused
  refine ⟨hrefused, hsame, hlater _, ?_, _, hshelf, ?_, hscan "Book"⟩
  · exact (hruns [emma, ⟨"2", "Book", [], []⟩]).2.1
  · decide +kernel

end GraphQuery.Graph
