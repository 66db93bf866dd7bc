/-
# Paging

A query makes rows only of the resources in its window, so other resources are never projected: with
and without a limit it takes different steps, and the shorter run may succeed where the longer one
fails.  Where the longer run succeeds, the shorter one gives the window of its rows, so a page shows
what the whole result shows in these places.

* `collect_window` is the statement for any collection, the rows of a sub-query included.
* **`execute_window` is the result for queries and documents.**
-/
import GraphQuery.Proofs.Engine.Shape
import GraphQuery.Proofs.Query.Counts

namespace GraphQuery

namespace Engine

variable {e : Engine}

/-! ## 1. Collections and queries -/

/-- What is chosen is the window of what is chosen without counts. -/
theorem chosen_eq_map_cut (q : Query) (rs : List Resource) :
    e.chosen q rs = (e.chosen q.unlimited rs).map q.slice.cut := by
  rw [chosen, chosen, show q.unlimited.filter = q.filter from rfl]
  cases e.accepted q.filter rs with
  | error err => rfl
  | ok kept => exact arrange_eq_map_cut _ _ _ _

/-- **The rows of a collection are the window of its rows without counts.** -/
theorem collect_window {rowOf : Resource → Except QueryError Row} {q : Query} {rs : List Resource}
    {v : Value} (hgroups : q.groups = []) (h : e.collect rowOf q.unlimited rs = .ok v) :
    ∃ rows, v = .list rows ∧ e.collect rowOf q rs = .ok (.list (q.slice.window rows)) := by
  obtain ⟨kept, hkept, h⟩ := bind_eq_ok.mp h
  obtain ⟨rows, hrows, h⟩ := bind_eq_ok.mp h
  rw [show q.unlimited.groups = [] from hgroups] at h
  refine ⟨rows.map .map, (pure_eq_ok.mp h).symm, ?_⟩
  have hchosen : e.chosen q rs = .ok (q.slice.cut kept) := by
    rw [chosen_eq_map_cut, hkept]
    rfl
  rw [collect, hchosen, ok_bind, mapM_cut q.slice hrows, ok_bind, hgroups, ← Slice.cut_eq_window,
    Slice.cut_map]
  rfl

theorem run_window {q : Query} {v : Value} (hid : q.id = none) (hgroups : q.groups = [])
    (h : e.run q.unlimited = .ok v) :
    ∃ rows, v = .list rows ∧ e.run q = .ok (.list (q.slice.window rows)) := by
  obtain ⟨hvalid, hproject⟩ := check_bind_eq_ok.mp h
  have hvalid : e.schema.validate q = .ok () := hvalid
  rw [project, show q.unlimited.id = none from hid] at hproject
  obtain ⟨rows, rfl, hrows⟩ := collect_window hgroups hproject
  refine ⟨rows, rfl, ?_⟩
  rw [run, hvalid, ok_bind, project, hid]
  exact hrows

/-! ## 2. Documents -/

/-- **A page is a window of the whole result.**  If a query for rows of resources has a result
without its limit and offset, then with them it has the window of that result.  The same holds of a
document and the document without limit and offset. -/
theorem execute_window (e : Engine) :
    (∀ (q : Query) (v : Value), q.id = none → q.groups = [] → e.run q.unlimited = .ok v →
      ∃ rows, v = .list rows ∧ e.run q = .ok (.list (q.slice.window rows))) ∧
    ∀ (document : Value) (q : Query), e.normalize document = .ok q → q.id = none → q.groups = [] →
      e.normalize document.withoutCounts = .ok q.unlimited ∧
        ∀ v, e.execute document.withoutCounts = .ok v →
          ∃ rows, v = .list rows ∧ e.execute document = .ok (.list (q.slice.window rows)) := by
  refine ⟨fun q v => run_window, fun document q hq hid hgroups => ?_⟩
  have hunlimited := Dialect.normalize_withoutCounts hq
  refine ⟨hunlimited, fun v hv => ?_⟩
  rw [execute, hunlimited, ok_bind] at hv
  rw [execute, hq, ok_bind]
  exact run_window hid hgroups hv

/-- The last but one in front of Zoe, with the first friend. -/
def officePage : Value := .map [
  ("order", .string "name"), ("select", .list [.string "name", .map [
    ("friends", .map [("limit", .int 1), ("select", .string "name")])]]),
  ("slice", .map [("before", .map [("name", .string "Zoe")]), ("limit", .int 1),
    ("offset", .int 1)]),
  ("type", .string "Person")]

/-- The query for it. -/
def officePageQuery : Query where
  typeName := "Person"
  select := [("friends", .subquery {
      typeName := "Person", select := [("name", .field "name")], slice := { limit := some 1 } }),
    ("name", .field "name")]
  order := [⟨"name", .asc⟩]
  slice := { limit := some 1, offset := some 1, before := some [("name", .string "Zoe")] }

/-- Everyone in front of Zoe. -/
def officeRows : List Value := [
  .map [("friends", .list [.map [("name", .string "Bob")]]), ("name", .string "Ann")],
  .map [("friends", .list []), ("name", .string "Bob")]]

theorem execute_window_office :
    office.normalize officePage = .ok officePageQuery ∧
      office.execute officePage.withoutCounts = .ok (.list officeRows) ∧
        office.run officePageQuery.unlimited = .ok (.list officeRows) ∧
          office.execute officePage = .ok (.list (officeRows.take 1)) ∧
            office.run officePageQuery = .ok (.list (officeRows.take 1)) := by
  have hq : office.normalize officePage = .ok officePageQuery := by decide +kernel
  have hwhole : office.execute officePage.withoutCounts = .ok (.list officeRows) := by decide +kernel
  have hrun : office.run officePageQuery.unlimited = .ok (.list officeRows) := by decide +kernel
  have hwindow : officePageQuery.slice.window officeRows = officeRows.take 1 := by decide +kernel
  obtain ⟨hqueries, hdocuments⟩ := execute_window office
  obtain ⟨rows, hrows, hpage⟩ := hqueries officePageQuery _ rfl rfl hrun
  obtain ⟨-, hpages⟩ := hdocuments officePage officePageQuery hq rfl rfl
  obtain ⟨rows', hrows', hdocument⟩ := hpages _ hwhole
  obtain rfl := Value.list.inj hrows
  obtain rfl := Value.list.inj hrows'
  rw [hwindow] at hpage hdocument
  exact ⟨hq, hwhole, hrun, hdocument, hpage⟩

end Engine

end GraphQuery
