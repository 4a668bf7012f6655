import TileSchema.Main
import TileSchema.Proofs.Artifact.FirstOffence
import TileSchema.Proofs.Code.Accessors
import TileSchema.Proofs.Code.Collisions
import TileSchema.Proofs.Code.CommentLines
import TileSchema.Proofs.Code.Comments
import TileSchema.Proofs.Code.Constructors
import TileSchema.Proofs.Code.Declarations
import TileSchema.Proofs.Code.Expressions
import TileSchema.Proofs.Code.Items
import TileSchema.Proofs.Code.References
import TileSchema.Proofs.Code.RowDispatch
import TileSchema.Proofs.Code.RowFields
import TileSchema.Proofs.Code.RowFile
import TileSchema.Proofs.Code.RowItems
import TileSchema.Proofs.Code.RowModule
import TileSchema.Proofs.Code.Scope
import TileSchema.Proofs.Code.UncheckedNames
import TileSchema.Proofs.Decimal.Reading
import TileSchema.Proofs.Decimal.Rounding
import TileSchema.Proofs.Decimal.Shortest
import TileSchema.Proofs.Filter.Canonical
import TileSchema.Proofs.Filter.Conjunction
import TileSchema.Proofs.Filter.Equality
import TileSchema.Proofs.Filter.Flattening
import TileSchema.Proofs.Filter.Grammar
import TileSchema.Proofs.Generate.Regeneration
import TileSchema.Proofs.Manifest.Decoding
import TileSchema.Proofs.Manifest.Reading
import TileSchema.Proofs.Rules.FieldValues
import TileSchema.Proofs.Schema.Crawl
import TileSchema.Proofs.Schema.Needs
import TileSchema.Proofs.Schema.Resolution
import TileSchema.Proofs.Table.Dispatch
import TileSchema.Proofs.Table.FieldTypes
import TileSchema.Proofs.Table.Order
import TileSchema.Proofs.Workspace.Gathering
import TileSchema.Proofs.Workspace.Operations
import TileSchema.Proofs.Workspace.Outcomes
import TileSchema.Proofs.Workspace.Paths
import TileSchema.Proofs.Workspace.Places
import TileSchema.Proofs.Workspace.Progress
import TileSchema.Proofs.Workspace.Reading
import TileSchema.Proofs.Workspace.Repetition
import TileSchema.Proofs.Workspace.Replacement
import TileSchema.Proofs.Workspace.Walk
import TileSchema.Proofs.Filter.Grouping
import TileSchema.Proofs.Table.Growth
import TileSchema.Proofs.Table.Stages
import TileSchema.Proofs.Filter.Widening
import TileSchema.Proofs.Table.MalformedFilters
import TileSchema.Proofs.Table.SourceField
import TileSchema.Proofs.Code.LayerItems
import TileSchema.Proofs.Code.FirstClaims
import TileSchema.Proofs.Decimal.Separation
import TileSchema.Proofs.Filter.KeyTexts
import TileSchema.Proofs.Filter.Leaves
import TileSchema.Proofs.Text.Declarable
import TileSchema.Proofs.Code.Captures
import TileSchema.Proofs.Config.SchemaPlace
