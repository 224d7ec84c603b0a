import RowAccess.Audit
import RowAccess.Calendar.Date
import RowAccess.Calendar.Instant
import RowAccess.Condition.Comparison
import RowAccess.Condition.Encoding
import RowAccess.Condition.Operand
import RowAccess.Condition.Predicate
import RowAccess.Json.Basic
import RowAccess.Json.Printer
import RowAccess.Json.Reader
import RowAccess.Number.Binary64
import RowAccess.Number.Literal
import RowAccess.Number.Shortest
import RowAccess.Ordered
import RowAccess.Proofs.Audit
import RowAccess.Proofs.Calendar.Date
import RowAccess.Proofs.Condition.Path
import RowAccess.Proofs.Content
import RowAccess.Proofs.Evaluation.Choices
import RowAccess.Proofs.Evaluation.Conjunction
import RowAccess.Proofs.Evaluation.Disjunction
import RowAccess.Proofs.Evaluation.Joining
import RowAccess.Proofs.Evaluation.Links
import RowAccess.Proofs.Evaluation.NormalForm
import RowAccess.Proofs.Evaluation.Related
import RowAccess.Proofs.Evaluation.Tree
import RowAccess.Proofs.Json.Equality
import RowAccess.Proofs.Number.Rounding
import RowAccess.Proofs.Outcome
import RowAccess.Proofs.Query.Agreement
import RowAccess.Proofs.Query.Bounds
import RowAccess.Proofs.Query.Compilation
import RowAccess.Proofs.Query.Contributions
import RowAccess.Proofs.Query.Detail
import RowAccess.Proofs.Query.Exclusion
import RowAccess.Proofs.Query.IgnoringCase
import RowAccess.Proofs.Query.Listing
import RowAccess.Proofs.Query.Operators
import RowAccess.Proofs.Query.Paging
import RowAccess.Proofs.Query.Parameters
import RowAccess.Proofs.Query.Partition
import RowAccess.Proofs.Query.RelatedIds
import RowAccess.Proofs.Query.RelationPath
import RowAccess.Proofs.Query.Repetition
import RowAccess.Proofs.Query.Showing
import RowAccess.Proofs.Query.Typing
import RowAccess.Proofs.Rest.Conformity
import RowAccess.Proofs.Rest.Contest
import RowAccess.Proofs.Rest.EntityTag
import RowAccess.Proofs.Rest.Frame
import RowAccess.Proofs.Rest.History
import RowAccess.Proofs.Rest.Interleaving
import RowAccess.Proofs.Rest.Lineage
import RowAccess.Proofs.Rest.Precondition
import RowAccess.Proofs.Rest.ReadBack
import RowAccess.Proofs.Rest.Replacement
import RowAccess.Proofs.Rest.Requests
import RowAccess.Proofs.Rest.Required
import RowAccess.Proofs.Rest.RowSteps
import RowAccess.Proofs.Rest.Unlinking
import RowAccess.Proofs.Rest.VersionChain
import RowAccess.Proofs.Rest.Writes
import RowAccess.Proofs.Schema.Declaration
import RowAccess.Proofs.Schema.Validity
import RowAccess.Proofs.Store.Calls
import RowAccess.Proofs.Store.IntegerOrder
import RowAccess.Proofs.Store.Order
import RowAccess.Proofs.Store.Reachable
import RowAccess.Proofs.Store.Selection
import RowAccess.Proofs.Store.Writes
import RowAccess.Proofs.Text.Integer
import RowAccess.Proofs.Text.LowerCase
import RowAccess.Proofs.Text.Split
import RowAccess.Proofs.Visibility.DeclaredPaths
import RowAccess.Proofs.Visibility.Grounds
import RowAccess.Proofs.Visibility.Hidden
import RowAccess.Proofs.Visibility.Narrowing
import RowAccess.Proofs.Visibility.Outcomes
import RowAccess.Proofs.Visibility.Startup
import RowAccess.Proofs.Visibility.TierTable
import RowAccess.Query.Compilation
import RowAccess.Query.Grammar
import RowAccess.Query.Listing
import RowAccess.Query.Paging
import RowAccess.Query.Parameters
import RowAccess.Query.Plan
import RowAccess.Query.Typing
import RowAccess.Rest.EntityTag
import RowAccess.Rest.Fault
import RowAccess.Rest.Identification
import RowAccess.Rest.MediaType
import RowAccess.Rest.Message
import RowAccess.Rest.Reading
import RowAccess.Rest.Route
import RowAccess.Rest.Service
import RowAccess.Rest.Setup
import RowAccess.Rest.Writing
import RowAccess.Schema.Declaration
import RowAccess.Schema.Fault
import RowAccess.Schema.FieldKind
import RowAccess.Schema.JsonSource
import RowAccess.Schema.Model
import RowAccess.Schema.Registry
import RowAccess.Schema.Source
import RowAccess.Schema.Tier
import RowAccess.Schema.Validation
import RowAccess.Schema.YamlSource
import RowAccess.Store.Basic
import RowAccess.Store.Evaluation
import RowAccess.Store.Order
import RowAccess.Store.Selection
import RowAccess.Store.Table
import RowAccess.Text.Blank
import RowAccess.Text.DecimalDigit
import RowAccess.Text.Integer
import RowAccess.Text.LowerCase
import RowAccess.Text.Percent
import RowAccess.Text.Quoted
import RowAccess.Text.Ranges
import RowAccess.Text.Split
import RowAccess.Text.Unprintable
import RowAccess.Text.Utf8
import RowAccess.Visibility.Identity
import RowAccess.Visibility.Policy
import RowAccess.Yaml.Cursor
import RowAccess.Yaml.Layout
import RowAccess.Yaml.Node
import RowAccess.Yaml.Token
