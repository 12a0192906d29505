import Phrasebook.Catalog
import Phrasebook.Catalog.Chain
import Phrasebook.Catalog.Lint
import Phrasebook.Catalog.Lookup
import Phrasebook.Catalog.Suggestion
import Phrasebook.Command.Arguments
import Phrasebook.Command.Check
import Phrasebook.Command.CoverageReport
import Phrasebook.Command.Grid
import Phrasebook.Command.Invocation
import Phrasebook.Command.Outcome
import Phrasebook.Command.Phrase
import Phrasebook.Command.Program
import Phrasebook.Coverage
import Phrasebook.DebugInfo
import Phrasebook.Decimal.Binary64
import Phrasebook.Decimal.Layout
import Phrasebook.Decimal.Reader
import Phrasebook.Decimal.Shortest
import Phrasebook.Dict
import Phrasebook.Document.AuthoredNode
import Phrasebook.Document.Basic
import Phrasebook.Document.Diagnostic
import Phrasebook.Document.Load
import Phrasebook.Document.Repair
import Phrasebook.Json.Buffer
import Phrasebook.Json.Content
import Phrasebook.Json.Fault
import Phrasebook.Json.Number
import Phrasebook.Json.Printer
import Phrasebook.Json.Reader
import Phrasebook.Json.Record
import Phrasebook.Json.Scan
import Phrasebook.Json.Skip
import Phrasebook.Locale
import Phrasebook.Main
import Phrasebook.Node
import Phrasebook.Node.Draft
import Phrasebook.Node.Json
import Phrasebook.Proofs.Dict
import Phrasebook.Proofs.Document.Entries
import Phrasebook.Proofs.Except
import Phrasebook.Proofs.Members
import Phrasebook.Proofs.Render.Content
import Phrasebook.Proofs.Render.ItemPart
import Phrasebook.Proofs.Render.Line
import Phrasebook.Proofs.Render.Outputs
import Phrasebook.Proofs.Render.Override
import Phrasebook.Proofs.Render.Parity
import Phrasebook.Proofs.Render.Rich
import Phrasebook.Proofs.Store.Announcement
import Phrasebook.Proofs.Store.Channel
import Phrasebook.Proofs.Store.Effect
import Phrasebook.Proofs.Store.Restart
import Phrasebook.Proofs.Store.Soundness
import Phrasebook.Proofs.Template.Merged
import Phrasebook.Proofs.Template.Printing
import Phrasebook.Proofs.Template.Reading
import Phrasebook.Proofs.Template.Run
import Phrasebook.Proofs.Template.Token
import Phrasebook.Render.Activation
import Phrasebook.Render.Line
import Phrasebook.Render.Markup
import Phrasebook.Render.Overlay
import Phrasebook.Render.Plain
import Phrasebook.Render.Renderers
import Phrasebook.Render.Renderer
import Phrasebook.Render.Rich
import Phrasebook.Render.Visible
import Phrasebook.Store
import Phrasebook.Store.Request
import Phrasebook.Style
import Phrasebook.Style.Json
import Phrasebook.Template
import Phrasebook.Template.Instance
import Phrasebook.Template.Parser
import Phrasebook.Template.Printer
import Phrasebook.Text.Columns
import Phrasebook.Text.Combining
import Phrasebook.Text.EditDistance
import Phrasebook.Text.Emoji
import Phrasebook.Text.Ignorable
import Phrasebook.Text.Ligature
import Phrasebook.Text.Position
import Phrasebook.Text.Printable
import Phrasebook.Text.Quoted
import Phrasebook.Text.Ranges
import Phrasebook.Text.Search
import Phrasebook.Text.Width
import Phrasebook.Value
import Phrasebook.Proofs.Catalog.Coverage
import Phrasebook.Proofs.Catalog.Lint
import Phrasebook.Proofs.Catalog.Lookup
import Phrasebook.Proofs.Command.Agreement
import Phrasebook.Proofs.Command.Coverage
import Phrasebook.Proofs.Command.Run
import Phrasebook.Proofs.Command.Strict
import Phrasebook.Proofs.Json.Words
import Phrasebook.Proofs.Json.Value
import Phrasebook.Proofs.Json.Skip
import Phrasebook.Proofs.Json.Decoding
import Phrasebook.Proofs.Json.Record
import Phrasebook.Proofs.Document.Decoding
import Phrasebook.Proofs.Document.Frame
import Phrasebook.Proofs.Document.Literal
import Phrasebook.Proofs.Document.LiteralEntry
import Phrasebook.Proofs.Document.Strings
import Phrasebook.Proofs.Document.FirstFault
import Phrasebook.Proofs.Document.Manuscript
import Phrasebook.Proofs.Document.Order
import Phrasebook.Proofs.Document.RepairWarnings
import Phrasebook.Proofs.Json.Matching
import Phrasebook.Proofs.Json.Nesting
import Phrasebook.Proofs.Json.Whole
import Phrasebook.Proofs.Json.Written
import Phrasebook.Proofs.Node.Reading
import Phrasebook.Proofs.Node.Height
import Phrasebook.Proofs.Node.RoundTrip
import Phrasebook.Proofs.Document.WrittenEntry
import Phrasebook.Proofs.Render.Element
import Phrasebook.Proofs.Render.Interception
import Phrasebook.Proofs.Render.Skeleton
import Phrasebook.Proofs.Render.Injection
import Phrasebook.Proofs.Render.Unambiguous
import Phrasebook.Proofs.Render.Merged
import Phrasebook.Proofs.Render.Determined
import Phrasebook.Proofs.Catalog.LastResort
import Phrasebook.Proofs.Template.References
import Phrasebook.Proofs.Render.Display
import Phrasebook.Proofs.Template.Attempt
import Phrasebook.Proofs.Text.Position
import Phrasebook.Proofs.Template.FirstBrace
import Phrasebook.Template.Attempt
import Phrasebook.Proofs.Template.Stretches
import Phrasebook.Proofs.Render.Depiction
import Phrasebook.Proofs.Render.NestedLists
import Phrasebook.Proofs.Catalog.Insertion
import Phrasebook.Proofs.Text.EditDistance
import Phrasebook.Proofs.Catalog.Suggestion
import Phrasebook.Proofs.Json.Passing
import Phrasebook.Proofs.Text.Search
import Phrasebook.Proofs.Json.Names
import Phrasebook.Proofs.Document.Label
import Phrasebook.Proofs.Document.Offset
import Phrasebook.Proofs.Document.LabelBounds
