import Courseware.Cli.Arguments
import Courseware.Cli.Run
import Courseware.Cli.Transcript
import Courseware.Course.Artifact
import Courseware.Course.Catalogue
import Courseware.Course.Plan
import Courseware.Course.PlanData
import Courseware.Course.Publication
import Courseware.Course.Validation
import Courseware.Decimal.Evaluate
import Courseware.Decimal.Shortest
import Courseware.Document.Compile
import Courseware.Document.Event
import Courseware.Document.Location
import Courseware.Document.PlainText
import Courseware.Document.Section
import Courseware.Document.Sections
import Courseware.Document.Slides
import Courseware.Document.Tree
import Courseware.Files.Access
import Courseware.Files.Emission
import Courseware.Files.Map
import Courseware.Files.Path
import Courseware.Files.Tree
import Courseware.Json.Basic
import Courseware.Json.Parser
import Courseware.Json.Printer
import Courseware.Json.Token
import Courseware.Main
import Courseware.Markdown.Autolink
import Courseware.Markdown.Block
import Courseware.Markdown.BlockReader
import Courseware.Markdown.Container
import Courseware.Markdown.Dialect
import Courseware.Markdown.Emphasis
import Courseware.Markdown.Entity
import Courseware.Markdown.Gfm
import Courseware.Markdown.Html
import Courseware.Markdown.Inline
import Courseware.Markdown.InlineItem
import Courseware.Markdown.InlineReader
import Courseware.Markdown.Landmark
import Courseware.Markdown.Leaf
import Courseware.Markdown.Line
import Courseware.Markdown.Opening
import Courseware.Markdown.Passage
import Courseware.Markdown.PlainText
import Courseware.Markdown.Reference
import Courseware.Markdown.Table
import Courseware.Markup.Cut
import Courseware.Markup.Fault
import Courseware.Markup.Lexeme
import Courseware.Markup.Registry
import Courseware.Markup.Segment
import Courseware.Problem
import Courseware.Project.Basic
import Courseware.Project.Build
import Courseware.Project.Job
import Courseware.Proofs.Cli.Check
import Courseware.Proofs.Cli.Sql
import Courseware.Proofs.Course.Catalogue
import Courseware.Proofs.Course.Defects
import Courseware.Proofs.Course.Keys
import Courseware.Proofs.Course.Links
import Courseware.Proofs.Course.Pages
import Courseware.Proofs.Course.Paths
import Courseware.Proofs.Course.Script
import Courseware.Proofs.Course.Validity
import Courseware.Proofs.Course.Worksheets
import Courseware.Proofs.Document.Admission
import Courseware.Proofs.Document.Conservation
import Courseware.Proofs.Document.Data
import Courseware.Proofs.Document.Entry
import Courseware.Proofs.Document.Grouping
import Courseware.Proofs.Document.Introduction
import Courseware.Proofs.Document.Leaves
import Courseware.Proofs.Document.Order
import Courseware.Proofs.Document.Remarks
import Courseware.Proofs.Document.Restored
import Courseware.Proofs.Document.Sections
import Courseware.Proofs.Document.Shape
import Courseware.Proofs.Document.Slides
import Courseware.Proofs.Document.Standing
import Courseware.Proofs.Document.Stretches
import Courseware.Proofs.Document.Texts
import Courseware.Proofs.Document.Title
import Courseware.Proofs.Files.Apart
import Courseware.Proofs.Files.Emissions
import Courseware.Proofs.Files.Emitter
import Courseware.Proofs.Files.Places
import Courseware.Proofs.Float.Dyadic
import Courseware.Proofs.Json.Reading
import Courseware.Proofs.Json.Recovery
import Courseware.Proofs.Markdown.Blocks
import Courseware.Proofs.Markdown.Definitions
import Courseware.Proofs.Markdown.Dialect
import Courseware.Proofs.Markdown.Gfm
import Courseware.Proofs.Markdown.Lines
import Courseware.Proofs.Markdown.OneLine
import Courseware.Proofs.Markdown.Order
import Courseware.Proofs.Markdown.WholeLines
import Courseware.Proofs.Markup.Alike
import Courseware.Proofs.Markup.Blame
import Courseware.Proofs.Markup.Closing
import Courseware.Proofs.Markup.Cuts
import Courseware.Proofs.Markup.Division
import Courseware.Proofs.Markup.Effect
import Courseware.Proofs.Markup.Escaping
import Courseware.Proofs.Markup.FieldBrackets
import Courseware.Proofs.Markup.GapText
import Courseware.Proofs.Markup.Grammar
import Courseware.Proofs.Markup.Lexing
import Courseware.Proofs.Markup.LongestMatch
import Courseware.Proofs.Markup.Nesting
import Courseware.Proofs.Markup.Outline
import Courseware.Proofs.Markup.Recognition
import Courseware.Proofs.Markup.Regions
import Courseware.Proofs.Markup.Registration
import Courseware.Proofs.Markup.Registry
import Courseware.Proofs.Markup.Restoring
import Courseware.Proofs.Markup.Sheets
import Courseware.Proofs.Markup.Shielding
import Courseware.Proofs.Markup.Step
import Courseware.Proofs.Markup.Tiling
import Courseware.Proofs.Markup.Turns
import Courseware.Proofs.Markup.WellFormed
import Courseware.Proofs.Project.Artifacts
import Courseware.Proofs.Project.Build
import Courseware.Proofs.Project.Isolation
import Courseware.Proofs.Project.Jobs
import Courseware.Proofs.Project.Rebuild
import Courseware.Proofs.Source.Blocks
import Courseware.Proofs.Source.Cut
import Courseware.Proofs.Source.Delimiters
import Courseware.Proofs.Source.Escapes
import Courseware.Proofs.Source.InlineMath
import Courseware.Proofs.Source.Joining
import Courseware.Proofs.Source.Pieces
import Courseware.Proofs.Source.Placeholder
import Courseware.Proofs.Source.Position
import Courseware.Proofs.Source.RoundTrip
import Courseware.Proofs.Source.Scanned
import Courseware.Proofs.Source.Settled
import Courseware.Proofs.Source.Shape
import Courseware.Proofs.Source.Stable
import Courseware.Proofs.Source.Unterminated
import Courseware.Proofs.State
import Courseware.Proofs.Task.Choices
import Courseware.Proofs.Task.Exchanges
import Courseware.Proofs.Task.Fields
import Courseware.Proofs.Task.Marks
import Courseware.Proofs.Task.Texts
import Courseware.Proofs.Task.WellFormed
import Courseware.Proofs.Text.Boundary
import Courseware.Proofs.Text.Indents
import Courseware.Proofs.Text.Parts
import Courseware.Proofs.Text.Slices
import Courseware.Settings
import Courseware.Shuffle
import Courseware.Source.Extraction
import Courseware.Source.Literal
import Courseware.Source.Position
import Courseware.Source.Restore
import Courseware.Task.Basic
import Courseware.Task.Builder
import Courseware.Task.Data
import Courseware.Task.PlainText
import Courseware.Text.Basic
import Courseware.Text.Blank
import Courseware.Text.Casing
import Courseware.Text.Lines
import Courseware.Text.Punctuation
import Courseware.Text.Span
import Courseware.Toml.Document
import Courseware.Toml.Scalar
import Courseware.Toml.Table
