/-
# Assertions on results

An assertion says what the result of a query should be: its value, or the error.  Every part that is
given must hold; with a part about errors the query must fail, without one it must not.

Results are compared as documents.  Of the rows of a result the first one may be looked at, or the
values of one column, where a row without the entry counts as null; a result that is no list has no
rows.
-/
import GraphQuery.Query.Error
import GraphQuery.Pattern.Matching
import GraphQuery.Pattern.Reader
import GraphQuery.Text.Occurrence

namespace GraphQuery

/-! ## 1. Assertions -/

/-- What the result of a query should be. -/
structure Assertion where
  null : Bool := false
  rows : Option Nat := none
  returns : Option Json := none
  first : Option Json := none
  column : Option (String × List Json) := none
  errorText : Option String := none
  errorPattern : Option String := none
  callerError : Option Bool := none
  deriving Repr

/-- Why an assertion does not hold. -/
inductive AssertionFailure where
  | failed (e : QueryError)
  | errorExpected (result : Json)
  | textExpected (text : String) (e : QueryError)
  | patternFault (fault : Pattern.Fault)
  | patternExpected (pattern : String) (e : QueryError)
  | sideExpected (caller : Bool) (e : QueryError)
  | nullExpected (result : Json)
  | rowsExpected (count : Nat) (result : Json)
  | resultExpected (expected result : Json)
  | firstExpected (expected result : Json)
  | columnExpected (key : String) (expected found : List Json)
  deriving Repr

/-- What was expected and what was found, on lines of their own. -/
def mismatch (subject : String) (expected found : Json) : String :=
  subject ++ " mismatch:\n  expected: " ++ expected.text ++ "\n  actual:   " ++ found.text

/-- The wording of why an assertion does not hold. -/
def AssertionFailure.message : AssertionFailure → String
  | failed e => "step failed: " ++ e.message
  | errorExpected result => "expected an error, but step returned " ++ result.text
  | textExpected text e => "expected error containing '" ++ text ++ "', got: " ++ e.message
  | patternFault fault => "invalid regex pattern: " ++ fault.message
  | patternExpected pattern e =>
    "expected error matching '" ++ pattern ++ "', got: " ++ e.message
  | sideExpected caller e =>
    "expected a " ++ (if caller then "caller" else "data") ++ " error, got: " ++ e.message
  | nullExpected result => "expected null, got " ++ result.text
  | rowsExpected count result => "expected " ++ toString count ++ " rows, got " ++ result.text
  | resultExpected expected result => mismatch "result" expected result
  | firstExpected expected result => mismatch "first row" expected result
  | columnExpected key expected found =>
    mismatch ("column " ++ key) (.array expected) (.array found)

/-! ## 2. Parts of results -/

/-- The first row of a list, or a single row. -/
def firstRow? : Json → Option Json
  | .array rows => rows.head?
  | .object entries => some (.object entries)
  | _ => none

/-- A row has all entries of another one. -/
def hasEntries (row expected : Json) : Bool :=
  match row, expected.entries? with
  | .object entries, some wanted =>
    wanted.all fun e =>
      match Keyed.get? e.1 entries with
      | some v => v.eqv e.2
      | none => false
  | _, _ => false

/-- The values under a key of all rows of a list. -/
def columnOf (key : String) (result : Json) : List Json :=
  ((result.items?).getD []).map fun row => (row.get? key).getD .null

/-! ## 3. Verdicts -/

namespace Assertion

variable (a : Assertion)

/-- Some part is about errors. -/
def expectsError : Bool :=
  a.errorText.isSome || a.errorPattern.isSome || a.callerError.isSome

/-- The message contains the text. -/
def checkErrorText (e : QueryError) : Except AssertionFailure Unit :=
  match a.errorText with
  | none => .ok ()
  | some text => if Text.contains e.message text then .ok () else .error (.textExpected text e)

/-- The message matches the pattern. -/
def checkErrorPattern (e : QueryError) : Except AssertionFailure Unit :=
  match a.errorPattern with
  | none => .ok ()
  | some pattern =>
    match Pattern.compile pattern with
    | .error fault => .error (.patternFault fault)
    | .ok p => if p.isMatch e.message then .ok () else .error (.patternExpected pattern e)

/-- The error lies on the side that is expected. -/
def checkSide (e : QueryError) : Except AssertionFailure Unit :=
  match a.callerError with
  | none => .ok ()
  | some caller => if e.isCaller = caller then .ok () else .error (.sideExpected caller e)

/-- The parts about errors hold of an error. -/
def checkError (e : QueryError) : Except AssertionFailure Unit := do
  a.checkErrorText e
  a.checkErrorPattern e
  a.checkSide e

/-- The result is null, if it should be. -/
def checkNull (result : Json) : Except AssertionFailure Unit :=
  if a.null && !result.isNull then .error (.nullExpected result) else .ok ()

/-- The result is a list of the given length. -/
def checkRows (result : Json) : Except AssertionFailure Unit :=
  match a.rows with
  | none => .ok ()
  | some count =>
    if result.items?.map List.length = some count then .ok ()
    else .error (.rowsExpected count result)

/-- The result is the given one. -/
def checkReturns (result : Json) : Except AssertionFailure Unit :=
  match a.returns with
  | none => .ok ()
  | some expected =>
    if result.eqv expected then .ok () else .error (.resultExpected expected result)

/-- The first row has the given entries. -/
def checkFirst (result : Json) : Except AssertionFailure Unit :=
  match a.first with
  | none => .ok ()
  | some expected =>
    if (firstRow? result).any fun row => hasEntries row expected then .ok ()
    else .error (.firstExpected expected result)

/-- The column has the given values. -/
def checkColumn (result : Json) : Except AssertionFailure Unit :=
  match a.column with
  | none => .ok ()
  | some (key, expected) =>
    let found := columnOf key result
    if Json.eqvItems found expected then .ok () else .error (.columnExpected key expected found)

/-- The parts about values hold of a result. -/
def checkResult (result : Json) : Except AssertionFailure Unit := do
  a.checkNull result
  a.checkRows result
  a.checkReturns result
  a.checkFirst result
  a.checkColumn result

/-- The assertion holds of what a query gives. -/
def verify : Except QueryError Json → Except AssertionFailure Unit
  | .error e => if a.expectsError then a.checkError e else .error (.failed e)
  | .ok result => if a.expectsError then .error (.errorExpected result) else a.checkResult result

end Assertion

end GraphQuery
