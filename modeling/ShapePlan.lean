import ShapePlan.Value.Reader
import ShapePlan.Store
import ShapePlan.Record.Codec
import ShapePlan.Plan.Codec
import ShapePlan.Document.Plan
import ShapePlan.Proofs.Query.Template
import ShapePlan.Proofs.Plan.Emitted
import ShapePlan.Proofs.Plan.Quoting
import ShapePlan.Proofs.Plan.Scoped
import ShapePlan.Proofs.Record.Constraints
import ShapePlan.Proofs.Vocabulary
import ShapePlan.Proofs.Query.Reading
import ShapePlan.Proofs.Plan.Facets
import ShapePlan.Proofs.Plan.Selection
import ShapePlan.Proofs.Plan.Settings
import ShapePlan.Proofs.Plan.Parameters
import ShapePlan.Proofs.Plan.Inventory
import ShapePlan.Proofs.Rdf.Text
import ShapePlan.Proofs.Shapes.PropertyRecords
import ShapePlan.Proofs.Shapes.ParameterSets
import ShapePlan.Proofs.Config.Policies
import ShapePlan.Proofs.Config.Stored
import ShapePlan.Proofs.Store.Procedure
import ShapePlan.Proofs.Store.Refinement
import ShapePlan.Proofs.Ascending
import ShapePlan.Proofs.Plan.Composition
import ShapePlan.Proofs.Rdf.Members
import ShapePlan.Proofs.Shapes.Enumeration
import ShapePlan.Proofs.Plan.Direction
import ShapePlan.Proofs.Shapes.Indirection
import ShapePlan.Proofs.Config.RoundTrip
import ShapePlan.Proofs.Rdf.Numbering
import ShapePlan.Proofs.Naming
import ShapePlan.Proofs.Plan.Failure
import ShapePlan.Proofs.Config.Items
import ShapePlan.Proofs.Config.Merging
import ShapePlan.Proofs.Config.Validation
import ShapePlan.Proofs.Store.Report
import ShapePlan.Proofs.Store.Causes
import ShapePlan.Proofs.Shapes.ClosedRecords
import ShapePlan.Proofs.Query.Labels
import ShapePlan.Proofs.Plan.Triggers
import ShapePlan.Proofs.Record.Codec
import ShapePlan.Proofs.Config.History
import ShapePlan.Proofs.Decimal.Lexical
import ShapePlan.Proofs.Record.JoinedValues
import ShapePlan.Proofs.Shapes.IntegerFacets
import ShapePlan.Proofs.Shapes.AllowedValues
import ShapePlan.Proofs.Rdf.ListWalk
import ShapePlan.Proofs.Decimal.Nearest
import ShapePlan.Proofs.Decimal.Float
import ShapePlan.Proofs.Shapes.Facets
