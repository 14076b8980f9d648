import CatalogPress.CommandLine
import CatalogPress.Main
import CatalogPress.Proofs.Table
import CatalogPress.Proofs.Context.Grouping
import CatalogPress.Proofs.Context.Invariants
import CatalogPress.Proofs.Catalog.Accepted
import CatalogPress.Proofs.Catalog.Record
import CatalogPress.Proofs.Render.Phases
import CatalogPress.Proofs.Template.Parsing
import CatalogPress.Proofs.Text.Trim
import CatalogPress.Proofs.Sanitize.Markers
import CatalogPress.Proofs.Template.Expression
import CatalogPress.Proofs.Template.Grammar
import CatalogPress.Proofs.Text.Seam
import CatalogPress.Proofs.Template.Reads
import CatalogPress.Proofs.Template.Strip
import CatalogPress.Proofs.Template.Tidy
import CatalogPress.Proofs.Template.Written
import CatalogPress.Proofs.Template.Source
import CatalogPress.Proofs.Context.Suppression
import CatalogPress.Proofs.Context.Cleared
import CatalogPress.Proofs.Context.Credited
import CatalogPress.Proofs.Catalog.Typed
import CatalogPress.Proofs.Catalog.Interleaving
import CatalogPress.Proofs.Context.Presentation
import CatalogPress.Proofs.Template.Relocated
import CatalogPress.Proofs.Template.Trimmed
import CatalogPress.Proofs.Render.Levels
import CatalogPress.Proofs.Template.BlockText
import CatalogPress.Proofs.Render.Blocks
import CatalogPress.Proofs.Render.Concatenation
import CatalogPress.Proofs.Render.Depth
import CatalogPress.Proofs.Value.Alike
import CatalogPress.Proofs.Render.Names
import CatalogPress.Proofs.Render.Unordered
import CatalogPress.Proofs.Catalog.Sections
import CatalogPress.Proofs.Catalog.Acceptable
import CatalogPress.Proofs.Catalog.Normalised
import CatalogPress.Proofs.Catalog.Exposed
import CatalogPress.Proofs.Json.Overlong
import CatalogPress.Proofs.Json.Overdeep
import CatalogPress.Proofs.Json.Unordered
import CatalogPress.Proofs.Text.Utf8
import CatalogPress.Proofs.Files.Reading
import CatalogPress.Proofs.Catalog.Load
import CatalogPress.Proofs.Project.Load
import CatalogPress.Proofs.Files.Name
import CatalogPress.Proofs.Files.Place
import CatalogPress.Proofs.Files.Sound
import CatalogPress.Proofs.Files.Descending
import CatalogPress.Proofs.Files.Making
import CatalogPress.Proofs.Log.Places
import CatalogPress.Proofs.Document.Writing
import CatalogPress.Proofs.Document.Isolation
import CatalogPress.Proofs.Document.Batch
import CatalogPress.Proofs.Document.AllOrNothing
import CatalogPress.Proofs.Files.Tree
import CatalogPress.Proofs.Log.SetUp
import CatalogPress.Proofs.Document.Pool
import CatalogPress.Proofs.Document.Sequential
import CatalogPress.Proofs.Run
import CatalogPress.Proofs.CommandLine
import CatalogPress.Proofs.Sanitize.Lines
import CatalogPress.Proofs.Template.Located
import CatalogPress.Proofs.Template.Normal
import CatalogPress.Proofs.Template.Spelling
import CatalogPress.Proofs.Catalog.WellFormed
import CatalogPress.Proofs.Value.Image
import CatalogPress.Proofs.Template.Front
import CatalogPress.Proofs.Files.Moving
import CatalogPress.Proofs.Files.Kept
import CatalogPress.Proofs.Log.Writing
import CatalogPress.Proofs.Log.Slots
import CatalogPress.Proofs.Log.Rotation
import CatalogPress.Proofs.Log.Copies
import CatalogPress.Proofs.Log.Handlers
import CatalogPress.Proofs.Log.Taking
import CatalogPress.Proofs.Log.Receiving
