/-
# What a verdict means

An assertion is judged by a row of checks that stops at the first fault.  Here stands what its parts
say, without the checks:

* of an error, that the message holds the text and matches the pattern, and on which side the error
  lies (`Assertion.HoldsOfError`);
* of a result, what it is, how many rows it has, what the first of them holds and what stands in one
  column (`Assertion.HoldsOfResult`);
* with a part about errors an assertion holds of errors only, without one of results only
  (`Assertion.Holds`).

The checks decide just this (**`Assertion.verify_eq_ok_iff`**), by one lemma for each part.  A scenario
whose documents load passes if all its steps hold, and else fails with the name of the first that does
not, unless it is the program that stops there (**`Scenario.run_verdict`**).

One part asks for less than its words say.  The check of a column takes a result that is no list for
one without rows, so it passes every such result, a row that has the key included, if no values are
expected (`Scenario.emptyColumn_unnoticed`).
-/
import GraphQuery.Proofs.Outcome
import GraphQuery.Scenario.Run

namespace GraphQuery

/-! ## 1. Parts of results -/

namespace Json

/-- The row that is looked at first: the head of a list of rows, or a row that stands alone. -/
inductive FirstRow : Json → List (String × Json) → Prop where
  | head {row : List (String × Json)} {rest : List Json} : FirstRow (array (object row :: rest)) row
  | alone {row : List (String × Json)} : FirstRow (object row) row

/-- The result is a list, and under the key its rows have the values, one each and in order.  A row
without an entry there has null. -/
def HasColumn (key : String) (values : List Json) (result : Json) : Prop :=
  ∃ rows, result = array rows ∧
    List.Forall₂ (fun row v => ((row.get? key).getD null).eqv v = true) rows values

theorem isNull_iff {j : Json} : j.isNull = true ↔ j = null := by
  cases j <;> simp [isNull]

theorem items?_eq_some_iff {j : Json} {items : List Json} :
    j.items? = some items ↔ j = array items := by
  cases j <;> simp [items?]

theorem eqvItems_iff {as bs : List Json} :
    eqvItems as bs = true ↔ List.Forall₂ (fun a b => a.eqv b = true) as bs := by
  induction as generalizing bs with
  | nil => cases bs <;> simp [eqvItems]
  | cons a as ih => cases bs <;> simp [eqvItems, ih]

end Json

theorem firstRow?_eq_some_iff {result : Json} {row : List (String × Json)} :
    firstRow? result = some (.object row) ↔ result.FirstRow row := by
  constructor
  · intro h
    cases result with
    | array rows =>
      obtain ⟨rest, rfl⟩ := List.head?_eq_some_iff.mp h
      exact .head
    | object entries =>
      cases h
      exact .alone
    | _ => cases h
  · rintro (_ | _) <;> rfl

theorem hasEntries_iff {row expected : Json} :
    hasEntries row expected = true ↔ ∃ entries wanted, row = .object entries ∧
      expected = .object wanted ∧
      ∀ e ∈ wanted, ∃ v, Keyed.get? e.1 entries = some v ∧ v.eqv e.2 = true := by
  have hwanted : ∀ wanted, expected.entries? = some wanted ↔ expected = .object wanted := by
    cases expected <;> simp [Json.entries?]
  unfold hasEntries
  split
  · next entries wanted hexpected =>
    obtain rfl := (hwanted wanted).mp hexpected
    rw [List.all_eq_true]
    constructor
    · intro h
      refine ⟨entries, wanted, rfl, rfl, fun e he => ?_⟩
      have hentry := h e he
      cases hget : Keyed.get? e.1 entries with
      | none => simp [hget] at hentry
      | some v =>
        simp only [hget] at hentry
        exact ⟨v, rfl, hentry⟩
    · rintro ⟨_, _, ⟨⟩, ⟨⟩, h⟩ e he
      obtain ⟨v, hget, hv⟩ := h e he
      simp only [hget, hv]
  · next hother =>
    simp only [Bool.false_eq_true, false_iff]
    rintro ⟨entries, wanted, rfl, rfl, -⟩
    exact hother entries wanted rfl rfl

/-- A result that is no list has an empty column. -/
theorem eqvItems_columnOf_iff {key : String} {values : List Json} {result : Json} :
    Json.eqvItems (columnOf key result) values = true ↔
      result.HasColumn key values ∨ (∀ rows, result ≠ .array rows) ∧ values = [] := by
  rw [Json.eqvItems_iff, columnOf]
  cases hitems : result.items? with
  | some rows =>
    obtain rfl := Json.items?_eq_some_iff.mp hitems
    simp [Json.HasColumn, List.forall₂_map_left_iff]
  | none =>
    have hlist : ∀ rows, result ≠ .array rows := by
      rintro rows rfl
      cases hitems
    simp [Json.HasColumn, hlist]

/-! ## 2. What an assertion says -/

namespace Assertion

variable {a : Assertion} {e : QueryError} {result : Json}

/-- Some part is about errors. -/
def SpeaksOfErrors (a : Assertion) : Prop :=
  a.errorText ≠ none ∨ a.errorPattern ≠ none ∨ a.callerError ≠ none

/-- The parts about errors hold of an error. -/
@[mk_iff]
structure HoldsOfError (a : Assertion) (e : QueryError) : Prop where
  text : ∀ text, a.errorText = some text → text.toList <:+: e.message.toList
  pattern : ∀ pattern, a.errorPattern = some pattern →
    ∃ p, Pattern.compile pattern = .ok p ∧ p.isMatch e.message = true
  side : ∀ caller, a.callerError = some caller → e.isCaller = caller

/-- The parts about values hold of a result.  An expected column without values says no more than
that there are no rows, and holds of every result that is no list. -/
@[mk_iff]
structure HoldsOfResult (a : Assertion) (result : Json) : Prop where
  null : a.null = true → result = .null
  rows : ∀ count, a.rows = some count → ∃ rows, result = .array rows ∧ rows.length = count
  returns : ∀ expected, a.returns = some expected → result.eqv expected = true
  first : ∀ expected, a.first = some expected → ∃ row wanted, result.FirstRow row ∧
    expected = .object wanted ∧
    ∀ e ∈ wanted, ∃ v, Keyed.get? e.1 row = some v ∧ v.eqv e.2 = true
  column : ∀ key values, a.column = some (key, values) →
    result.HasColumn key values ∨ (∀ rows, result ≠ .array rows) ∧ values = []

/-- The assertion holds of what a query gives. -/
def Holds (a : Assertion) : Except QueryError Json → Prop
  | .error e => a.SpeaksOfErrors ∧ a.HoldsOfError e
  | .ok result => ¬a.SpeaksOfErrors ∧ a.HoldsOfResult result

/-! ## 3. Checks -/

theorem guard_eq_ok_iff {ε : Type} {c : Prop} [Decidable c] {e : ε} :
    (if c then .ok () else .error e : Except ε Unit) = .ok () ↔ c := by
  split <;> simp [*]

theorem expectsError_iff : a.expectsError = true ↔ a.SpeaksOfErrors := by
  simp [expectsError, SpeaksOfErrors, Option.isSome_iff_ne_none, or_assoc]

theorem checkErrorText_eq_ok_iff :
    a.checkErrorText e = .ok () ↔
      ∀ text, a.errorText = some text → text.toList <:+: e.message.toList := by
  unfold checkErrorText
  cases a.errorText with
  | none => simp
  | some text => simp [Text.contains, Text.occursIn_iff]

theorem checkErrorPattern_eq_ok_iff :
    a.checkErrorPattern e = .ok () ↔ ∀ pattern, a.errorPattern = some pattern →
      ∃ p, Pattern.compile pattern = .ok p ∧ p.isMatch e.message = true := by
  unfold checkErrorPattern
  cases a.errorPattern with
  | none => simp
  | some pattern =>
    cases hcompile : Pattern.compile pattern with
    | error fault => simp [hcompile]
    | ok p => simp [hcompile]

theorem checkSide_eq_ok_iff :
    a.checkSide e = .ok () ↔ ∀ caller, a.callerError = some caller → e.isCaller = caller := by
  unfold checkSide
  cases a.callerError with
  | none => simp
  | some caller => simp

theorem checkError_eq_ok_iff : a.checkError e = .ok () ↔ a.HoldsOfError e := by
  rw [checkError, check_bind_eq_ok, check_bind_eq_ok, checkErrorText_eq_ok_iff,
    checkErrorPattern_eq_ok_iff, checkSide_eq_ok_iff, holdsOfError_iff]

theorem checkNull_eq_ok_iff :
    a.checkNull result = .ok () ↔ (a.null = true → result = .null) := by
  rw [← Json.isNull_iff, checkNull]
  cases a.null <;> cases result.isNull <;> simp

theorem checkRows_eq_ok_iff :
    a.checkRows result = .ok () ↔ ∀ count, a.rows = some count →
      ∃ rows, result = .array rows ∧ rows.length = count := by
  unfold checkRows
  cases a.rows with
  | none => simp
  | some count => simp [Json.items?_eq_some_iff]

theorem checkReturns_eq_ok_iff :
    a.checkReturns result = .ok () ↔
      ∀ expected, a.returns = some expected → result.eqv expected = true := by
  unfold checkReturns
  cases a.returns with
  | none => simp
  | some expected => simp

theorem checkFirst_eq_ok_iff :
    a.checkFirst result = .ok () ↔ ∀ expected, a.first = some expected →
      ∃ row wanted, result.FirstRow row ∧ expected = .object wanted ∧
        ∀ e ∈ wanted, ∃ v, Keyed.get? e.1 row = some v ∧ v.eqv e.2 = true := by
  unfold checkFirst
  cases a.first with
  | none => simp
  | some expected =>
    simp only [guard_eq_ok_iff, Option.any_eq_true, hasEntries_iff, Option.some.injEq,
      forall_eq']
    constructor
    · rintro ⟨_, hfirst, row, wanted, rfl, hexpected, hentries⟩
      exact ⟨row, wanted, firstRow?_eq_some_iff.mp hfirst, hexpected, hentries⟩
    · rintro ⟨row, wanted, hfirst, hexpected, hentries⟩
      exact ⟨_, firstRow?_eq_some_iff.mpr hfirst, row, wanted, rfl, hexpected, hentries⟩

theorem checkColumn_eq_ok_iff :
    a.checkColumn result = .ok () ↔ ∀ key values, a.column = some (key, values) →
      result.HasColumn key values ∨ (∀ rows, result ≠ .array rows) ∧ values = [] := by
  unfold checkColumn
  cases a.column with
  | none => simp
  | some column =>
    obtain ⟨key, values⟩ := column
    dsimp only
    rw [guard_eq_ok_iff, eqvItems_columnOf_iff]
    constructor
    · rintro h _ _ ⟨⟩
      exact h
    · intro h
      exact h key values rfl

theorem checkResult_eq_ok_iff : a.checkResult result = .ok () ↔ a.HoldsOfResult result := by
  rw [checkResult, check_bind_eq_ok, check_bind_eq_ok, check_bind_eq_ok, check_bind_eq_ok,
    checkNull_eq_ok_iff, checkRows_eq_ok_iff, checkReturns_eq_ok_iff, checkFirst_eq_ok_iff,
    checkColumn_eq_ok_iff, holdsOfResult_iff]

/-- **The checks decide whether an assertion holds.** -/
theorem verify_eq_ok_iff {outcome : Except QueryError Json} :
    a.verify outcome = .ok () ↔ a.Holds outcome := by
  cases outcome with
  | error e =>
    rw [verify, Holds, ← expectsError_iff, ← checkError_eq_ok_iff]
    cases a.expectsError <;> simp
  | ok result =>
    rw [verify, Holds, ← expectsError_iff, ← checkResult_eq_ok_iff]
    cases a.expectsError <;> simp

end Assertion

/-! ## 4. Runs -/

/-- The program does not stop in the query, and the assertion of the step holds of what it gives. -/
def Step.Holds (s : Step) (e : Engine) : Prop :=
  QueryError.stops (e.executeJson s.query) = false ∧ s.assertion.Holds (e.executeJson s.query)

/-- What is reported of a step that does not hold. -/
inductive Step.Fails (s : Step) (e : Engine) : ScenarioError → Prop where
  | stopped (h : QueryError.stops (e.executeJson s.query) = true) : Fails s e .stopped
  | assertion {failure : AssertionFailure}
    (hruns : QueryError.stops (e.executeJson s.query) = false)
    (h : s.assertion.verify (e.executeJson s.query) = .error failure) :
    Fails s e (.assertionFailed s.name failure)

theorem Step.run_eq_ok_iff {s : Step} {e : Engine} : s.run e = .ok () ↔ s.Holds e := by
  rw [Step.Holds, ← Assertion.verify_eq_ok_iff, Step.run]
  cases QueryError.stops (e.executeJson s.query) with
  | true => simp
  | false => cases s.assertion.verify (e.executeJson s.query) <;> simp

theorem Step.run_eq_error_iff {s : Step} {e : Engine} {fault : ScenarioError} :
    s.run e = .error fault ↔ s.Fails e fault := by
  rw [Step.run]
  constructor
  · intro h
    cases hstops : QueryError.stops (e.executeJson s.query) with
    | true =>
      simp only [hstops, if_true, Except.error.injEq] at h
      exact h ▸ .stopped hstops
    | false =>
      simp only [hstops, Bool.false_eq_true, if_false] at h
      cases hverify : s.assertion.verify (e.executeJson s.query) with
      | ok _ => simp [hverify] at h
      | error failure =>
        simp only [hverify, Except.error.injEq] at h
        exact h ▸ .assertion hstops hverify
  · rintro (hstops | ⟨hstops, hverify⟩)
    · simp [hstops]
    · simp [hstops, hverify]

theorem Step.Fails.not_holds {s : Step} {e : Engine} {fault : ScenarioError}
    (h : s.Fails e fault) : ¬s.Holds e := by
  rw [← Step.run_eq_ok_iff, Step.run_eq_error_iff.mpr h]
  nofun

namespace Scenario

/-- The run of a scenario whose documents load is a check of its steps, one after the other. -/
theorem run_of_loaded {s : Scenario} {schema : Schema} {graph : Graph}
    (hschema : s.loadSchema = .ok schema) (hgraph : s.loadGraph = .ok graph) :
    s.run = s.steps.forM fun step => step.run { schema, graph } := by
  rw [run, engine, hschema, ok_bind, hgraph, ok_bind]
  rfl

/-- **A scenario passes if all its steps hold**, and else fails with the name of the first that does
not, unless the program stops in its query. -/
theorem run_verdict (s : Scenario) {schema : Schema} {graph : Graph}
    (hschema : s.loadSchema = .ok schema) (hgraph : s.loadGraph = .ok graph) :
    (s.run = .ok () ↔ ∀ step ∈ s.steps, step.Holds { schema, graph }) ∧
      ∀ fault, s.run = .error fault ↔ ∃ before step after,
        s.steps = before ++ step :: after ∧ (∀ p ∈ before, p.Holds { schema, graph }) ∧
          ¬step.Holds { schema, graph } ∧ step.Fails { schema, graph } fault := by
  rw [run_of_loaded hschema hgraph]
  refine ⟨?_, fun fault => ?_⟩
  · rw [forM_eq_ok_iff]
    simp only [Step.run_eq_ok_iff]
  · rw [forM_eq_error_iff]
    simp only [Step.run_eq_ok_iff, Step.run_eq_error_iff]
    constructor
    · rintro ⟨before, step, after, hsteps, hbefore, hfails⟩
      exact ⟨before, step, after, hsteps, hbefore, hfails.not_holds, hfails⟩
    · rintro ⟨before, step, after, hsteps, hbefore, -, hfails⟩
      exact ⟨before, step, after, hsteps, hbefore, hfails⟩

/-- A schema of people who have names. -/
def peopleSchema : Json := .object [("resources", .object [
  ("Person", .object [("attributes", .object [("name", .object [("type", .string "String")])])])])]

/-- A graph with one of them. -/
def peopleGraph : Json := .object [
  ("Person", .object [("ann", .object [("attributes", .object [("name", .string "Ann")])])])]

/-- The engine for these documents. -/
def people : Engine where
  schema := ⟨[("Person", {
    name := "Person"
    attributes := [("name", ⟨"name", "String"⟩)]
    relationships := [] })]⟩
  graph := {
    resources := [("Person", [
      ("ann", { id := "ann", typeName := "Person", attributes := [("name", .string "Ann")] })])]
    index := ⟨[("Person", ["ann"])]⟩ }

/-- A scenario about these people. -/
def ofPeople (steps : List Step) : Scenario where
  name := "people"
  schema := some peopleSchema
  graph := some peopleGraph
  steps := steps

theorem loadSchema_ofPeople (steps : List Step) : (ofPeople steps).loadSchema = .ok people.schema := by
  have hschema : Schema.ofJson peopleSchema = .ok people.schema := by decide +kernel
  simp only [loadSchema, ofPeople, hschema]

theorem loadGraph_ofPeople (steps : List Step) : (ofPeople steps).loadGraph = .ok people.graph := by
  have hgraph : Graph.ofJson peopleGraph = .ok people.graph := by decide +kernel
  simp only [loadGraph, ofPeople, hgraph]

/-- A step that asks for a type that is not there, and expects the error. -/
def unicorns : Step where
  name := "unicorns"
  query := .object [("select", .string "*"), ("type", .string "Unicorn")]
  assertion := { errorText := some "Unicorn", callerError := some true }

/-- A step that asks for everybody, and expects one name. -/
def everybody : Step where
  name := "everybody"
  query := .object [("select", .string "name"), ("type", .string "Person")]
  assertion := {
    rows := some 1
    first := some (.object [("name", .string "Ann")])
    column := some ("name", [.string "Ann"]) }

/-- A step that asks for Ann, with what is expected. -/
def onlyAnn (assertion : Assertion) : Step where
  name := "Ann"
  query := .object [("id", .string "ann"), ("select", .string "name"), ("type", .string "Person")]
  assertion := assertion

/-- Of two steps that do not hold, the first is named. -/
theorem run_verdict_people :
    let s := ofPeople [unicorns, everybody, onlyAnn { null := true }, unicorns, { everybody with
      name := "nobody", assertion := { rows := some 0 } }]
    s.loadSchema = .ok people.schema ∧ s.loadGraph = .ok people.graph ∧
      (∃ failure, s.run = .error (.assertionFailed "Ann" failure)) ∧
      (ofPeople [unicorns, everybody]).run = .ok () := by
  intro s
  have hunicorns : unicorns.Holds people :=
    Step.run_eq_ok_iff.mp (check_of_isOk (by decide +kernel))
  have heverybody : everybody.Holds people :=
    Step.run_eq_ok_iff.mp (check_of_isOk (by decide +kernel))
  have hbefore : ∀ p ∈ [unicorns, everybody], p.Holds people := by
    simp [hunicorns, heverybody]
  have hschema : s.loadSchema = .ok people.schema := loadSchema_ofPeople _
  have hgraph : s.loadGraph = .ok people.graph := loadGraph_ofPeople _
  refine ⟨hschema, hgraph, ?_, ?_⟩
  · have hverify : (onlyAnn { null := true }).assertion.verify
        (people.executeJson (onlyAnn { null := true }).query) =
          .error (.nullExpected (.object [("name", .string "Ann")])) := by
      rfl
    have hfails := Step.Fails.assertion (by decide +kernel) hverify
    exact ⟨_, ((run_verdict s hschema hgraph).2 _).mpr
      ⟨_, _, _, rfl, hbefore, hfails.not_holds, hfails⟩⟩
  · exact (run_verdict _ (loadSchema_ofPeople _) (loadGraph_ofPeople _)).1.mpr hbefore

/-- **A column that is expected to be empty goes unchecked** in a result that is no list: here a row
with the name of Ann. -/
theorem emptyColumn_unnoticed :
    let step := onlyAnn { column := some ("name", []) }
    let result := Json.object [("name", .string "Ann")]
    (ofPeople [step]).loadSchema = .ok people.schema ∧ (ofPeople [step]).loadGraph = .ok people.graph ∧
      (ofPeople [step]).run = .ok () ∧ people.executeJson step.query = .ok result ∧
      step.assertion.column = some ("name", []) ∧ ¬result.HasColumn "name" [] := by
  intro step result
  have hstep : step.run people = .ok () := check_of_isOk (by decide +kernel)
  refine ⟨loadSchema_ofPeople _, loadGraph_ofPeople _, ?_, rfl, rfl, ?_⟩
  · rw [run_of_loaded (loadSchema_ofPeople _) (loadGraph_ofPeople _), forM_eq_ok_iff]
    intro p hp
    obtain rfl := List.mem_singleton.mp hp
    exact hstep
  · rintro ⟨rows, hrows, -⟩
    simp [result] at hrows

end Scenario

end GraphQuery
