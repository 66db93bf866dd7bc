/-
# Scenarios

A scenario is a schema, a graph, and named steps: queries with assertions on what they give.  It
passes if the documents load and all assertions hold; else it fails with the first fault.  Where the
program stops in a query, no assertion is looked at any more.
-/
import GraphQuery.Engine.Execution
import GraphQuery.Graph.Document
import GraphQuery.Scenario.Assertion
import GraphQuery.Schema.Document

namespace GraphQuery

/-! ## 1. Scenarios -/

/-- A query and what it should give. -/
structure Step where
  name : String
  query : Json
  assertion : Assertion := {}
  deriving Repr

/-- Documents of a schema and a graph, and steps.  Without a document the graph is empty. -/
structure Scenario where
  name : String
  schema : Option Json := none
  graph : Option Json := none
  steps : List Step := []
  deriving Repr

/-- Why a scenario does not pass. -/
inductive ScenarioError where
  | missingSchema (scenario : String)
  | schema (e : SchemaError)
  | graph (e : GraphError)
  | assertionFailed (step : String) (failure : AssertionFailure)
  | stopped
  deriving Repr

/-- The wording of an error. -/
def ScenarioError.message : ScenarioError → String
  | missingSchema scenario => "Scenario " ++ scenario ++ " has no schema"
  | schema e => "Invalid schema fixture: " ++ e.message
  | graph e => "Invalid graph fixture: " ++ e.message
  | assertionFailed step failure => "Step " ++ step ++ ": assertion failed: " ++ failure.message
  | stopped => ExprError.stopped.message

/-! ## 2. Running -/

/-- What a query document gives, as a document. -/
def Engine.executeJson (e : Engine) (query : Json) : Except QueryError Json :=
  (e.execute (.ofJson query)).map Value.toJson

/-- The assertion of a step holds. -/
def Step.run (e : Engine) (s : Step) : Except ScenarioError Unit :=
  let outcome := e.executeJson s.query
  if QueryError.stops outcome then .error .stopped
  else
    match s.assertion.verify outcome with
    | .ok _ => .ok ()
    | .error failure => .error (.assertionFailed s.name failure)

namespace Scenario

variable (s : Scenario)

/-- The schema of the scenario. -/
def loadSchema : Except ScenarioError Schema :=
  match s.schema with
  | none => .error (.missingSchema s.name)
  | some document =>
    match Schema.ofJson document with
    | .ok schema => .ok schema
    | .error e => .error (.schema e)

/-- The graph of the scenario. -/
def loadGraph : Except ScenarioError Graph :=
  match s.graph with
  | none => .ok .empty
  | some document =>
    match Graph.ofJson document with
    | .ok graph => .ok graph
    | .error e => .error (.graph e)

/-- The engine for the scenario, with all operators. -/
def engine : Except ScenarioError Engine := do
  let schema ← s.loadSchema
  let graph ← s.loadGraph
  return { schema, graph }

/-- The scenario passes. -/
def run : Except ScenarioError Unit := do
  let e ← s.engine
  s.steps.forM (Step.run e)

end Scenario

end GraphQuery
