import GraphQuery.Json.Reader
import GraphQuery.Value.Comparison
import GraphQuery.Value.Json
import GraphQuery.Value.Path
import GraphQuery.Pattern.Matching
import GraphQuery.Pattern.Reader
import GraphQuery.Text.Quoted
import GraphQuery.Expression.Evaluation
import GraphQuery.Schema.Document
import GraphQuery.Graph.Document
import GraphQuery.Query.Basic
import GraphQuery.Query.Document
import GraphQuery.Query.Error
import GraphQuery.Query.Clause
import GraphQuery.Query.Normalization
import GraphQuery.Rows.Arrangement
import GraphQuery.Rows.Filtering
import GraphQuery.Rows.Grouping
import GraphQuery.Engine.Execution
import GraphQuery.Scenario.Assertion
import GraphQuery.Scenario.Run
import GraphQuery.Proofs.Outcome
import GraphQuery.Proofs.Entries
import GraphQuery.Proofs.Expression.Checks
import GraphQuery.Proofs.Query.Reading
import GraphQuery.Proofs.Query.NormalForm
import GraphQuery.Proofs.Query.Rereading
import GraphQuery.Proofs.Expression.Safety
import GraphQuery.Proofs.Expression.Locality
import GraphQuery.Proofs.Rows.Safety
import GraphQuery.Proofs.Engine.Safety
import GraphQuery.Proofs.Ordering.StableSort
import GraphQuery.Proofs.Ordering.Tuples
import GraphQuery.Proofs.Ordering.Anchors
import GraphQuery.Proofs.Ordering.Cursors
import GraphQuery.Proofs.Decimal.Intervals
import GraphQuery.Proofs.Decimal.Writing
import GraphQuery.Proofs.Json.Text
import GraphQuery.Proofs.Expression.Sums
import GraphQuery.Proofs.Rows.Partitions
import GraphQuery.Proofs.Rows.GroupRows
import GraphQuery.Proofs.Rows.RollUp
import GraphQuery.Proofs.Rows.GroupKeys
import GraphQuery.Proofs.Graph.Store
import GraphQuery.Proofs.Json.Record
import GraphQuery.Proofs.Graph.Holdings
import GraphQuery.Proofs.Engine.Shape
import GraphQuery.Proofs.Binary64.Rounding
import GraphQuery.Proofs.Value.Transitivity
import GraphQuery.Proofs.Ordering.Windows
import GraphQuery.Proofs.Query.Counts
import GraphQuery.Proofs.Engine.Paging
import GraphQuery.Proofs.Engine.Growth
import GraphQuery.Proofs.Engine.Lookup
import GraphQuery.Proofs.Schema.Building
import GraphQuery.Proofs.Query.Faults
import GraphQuery.Proofs.Schema.Integrity
import GraphQuery.Proofs.Query.Depth
import GraphQuery.Proofs.Query.Merging
import GraphQuery.Proofs.Query.Shorthands
import GraphQuery.Proofs.Query.LongForms
import GraphQuery.Proofs.Expression.Quoting
import GraphQuery.Proofs.Expression.Operands
import GraphQuery.Proofs.Engine.Origins
import GraphQuery.Proofs.Engine.Members
import GraphQuery.Proofs.Engine.Attributes
import GraphQuery.Proofs.Engine.CallerErrors
import GraphQuery.Proofs.Query.Outlines
import GraphQuery.Proofs.Query.Quoting
import GraphQuery.Proofs.Ordering.Prefixes
import GraphQuery.Proofs.Ordering.Mirror
import GraphQuery.Proofs.Ordering.Pages
import GraphQuery.Proofs.Rows.Combinators
import GraphQuery.Proofs.Value.Paths
import GraphQuery.Proofs.Engine.GroupLevels
import GraphQuery.Proofs.Engine.Fields
import GraphQuery.Proofs.Expression.Trichotomy
import GraphQuery.Proofs.Rows.Regrouping
import GraphQuery.Proofs.Ordering.Ranks
import GraphQuery.Proofs.Expression.OrderStatistics
import GraphQuery.Proofs.Expression.Membership
import GraphQuery.Proofs.Scenario.Verdicts
import GraphQuery.Proofs.Value.Conversion
