import ControlLogic.Analysis.Annotation
import ControlLogic.Analysis.ControlFlow
import ControlLogic.Analysis.Drawing
import ControlLogic.Analysis.FlowGraph
import ControlLogic.Analysis.Interaction
import ControlLogic.Analysis.Line
import ControlLogic.Analysis.Query
import ControlLogic.Analysis.Reference
import ControlLogic.Analysis.Report
import ControlLogic.Analysis.Usage
import ControlLogic.Catalog
import ControlLogic.Cli.Arguments
import ControlLogic.Cli.Console
import ControlLogic.Cli.Convert
import ControlLogic.Cli.Draw
import ControlLogic.Cli.Report
import ControlLogic.Cli.Run
import ControlLogic.Cli.Survey
import ControlLogic.Diagram.Basic
import ControlLogic.Diagram.Code
import ControlLogic.Diagram.Record
import ControlLogic.Exchange.Conversion
import ControlLogic.Exchange.Data
import ControlLogic.Exchange.Direction
import ControlLogic.Exchange.Document
import ControlLogic.Exchange.Export
import ControlLogic.Exchange.Generate
import ControlLogic.Exchange.Import
import ControlLogic.Exchange.Record
import ControlLogic.Exchange.Routine
import ControlLogic.Exchange.Source
import ControlLogic.Exchange.Survey
import ControlLogic.Exchange.Tag
import ControlLogic.Fault
import ControlLogic.Files
import ControlLogic.Json.Basic
import ControlLogic.Json.Printer
import ControlLogic.Json.Reader
import ControlLogic.Ladder.Code
import ControlLogic.Ladder.Instruction
import ControlLogic.Ladder.Plain
import ControlLogic.Ladder.Rung
import ControlLogic.Legacy.Extract
import ControlLogic.Legacy.Generate
import ControlLogic.Legacy.Names
import ControlLogic.Legacy.Record
import ControlLogic.Legacy.Source
import ControlLogic.Legacy.Standard
import ControlLogic.Main
import ControlLogic.Markup.Element
import ControlLogic.Markup.Reader
import ControlLogic.Markup.Token
import ControlLogic.Markup.Writer
import ControlLogic.OrderedSet.Basic
import ControlLogic.OrderedSet.Loose
import ControlLogic.Overlay.Apply
import ControlLogic.Overlay.Basic
import ControlLogic.Overlay.Record
import ControlLogic.Plant.Basic
import ControlLogic.Plant.Load
import ControlLogic.Plant.Summary
import ControlLogic.Project.Basic
import ControlLogic.Project.Check
import ControlLogic.Project.Fidelity
import ControlLogic.Project.Listing
import ControlLogic.Project.Record
import ControlLogic.Proofs.Diagram.Order
import ControlLogic.Proofs.Diagram.Sheets
import ControlLogic.Proofs.Exchange.DeclaredTypes
import ControlLogic.Proofs.Exchange.Document
import ControlLogic.Proofs.Exchange.Generated
import ControlLogic.Proofs.Exchange.ProjectDocument
import ControlLogic.Proofs.Exchange.Rereading
import ControlLogic.Proofs.Exchange.Routine
import ControlLogic.Proofs.Ladder.Calls
import ControlLogic.Proofs.Ladder.Code
import ControlLogic.Proofs.Ladder.Marking
import ControlLogic.Proofs.Ladder.Meaning
import ControlLogic.Proofs.Ladder.Nesting
import ControlLogic.Proofs.Ladder.OneLine
import ControlLogic.Proofs.Ladder.Outputs
import ControlLogic.Proofs.Ladder.Power
import ControlLogic.Proofs.Ladder.Reading
import ControlLogic.Proofs.Ladder.Rendering
import ControlLogic.Proofs.Markup.RoundTrip
import ControlLogic.Proofs.Markup.Tokens
import ControlLogic.Proofs.Overlay.Additions
import ControlLogic.Proofs.Plant.Conflicts
import ControlLogic.Proofs.Project.Fidelity
import ControlLogic.Proofs.StructuredText.BitProgram
import ControlLogic.Proofs.StructuredText.Declarations
import ControlLogic.Proofs.StructuredText.Sections
import ControlLogic.Proofs.StructuredText.Spelling
import ControlLogic.Proofs.Text.Chars
import ControlLogic.Proofs.Text.Keyword
import ControlLogic.Proofs.Text.Pattern
import ControlLogic.Proofs.Text.Preferred
import ControlLogic.Sample.Project
import ControlLogic.Sample.Source
import ControlLogic.Sample.Volume
import ControlLogic.Source.Cpp
import ControlLogic.Source.Lad
import ControlLogic.Source.OpenPlc
import ControlLogic.Source.Record
import ControlLogic.Source.Scl
import ControlLogic.StateMachine.Basic
import ControlLogic.StateMachine.Composite
import ControlLogic.StateMachine.Evidence
import ControlLogic.StateMachine.Record
import ControlLogic.StateMachine.Settings
import ControlLogic.StructuredText.Body
import ControlLogic.StructuredText.Comments
import ControlLogic.StructuredText.Declarations
import ControlLogic.StructuredText.Line
import ControlLogic.StructuredText.Name
import ControlLogic.StructuredText.Reserved
import ControlLogic.StructuredText.Statement
import ControlLogic.Table
import ControlLogic.Text.Basic
import ControlLogic.Text.Blank
import ControlLogic.Text.Case
import ControlLogic.Text.CaseTable
import ControlLogic.Text.Chars
import ControlLogic.Text.Decimal
import ControlLogic.Text.Expression
import ControlLogic.Text.Keyword
import ControlLogic.Text.Numeral
import ControlLogic.Text.Pattern
import ControlLogic.Text.Printable
import ControlLogic.Text.Quoted
import ControlLogic.Text.Ranges
import ControlLogic.Text.Sorted
import ControlLogic.Text.Utf8
import ControlLogic.Text.Word
import ControlLogic.Proofs.StructuredText.DeclarationLine
import ControlLogic.Proofs.StructuredText.DeclarationReading
import ControlLogic.Proofs.Project.Listing
import ControlLogic.Proofs.Overlay.Idempotence
import ControlLogic.Proofs.Plant.Uses
import ControlLogic.Proofs.Plant.Dependencies
import ControlLogic.Proofs.Analysis.Reference
import ControlLogic.Proofs.Plant.Tracking
import ControlLogic.Proofs.Overlay.Scope
import ControlLogic.Proofs.Analysis.Lines
import ControlLogic.Proofs.Plant.Disagreement
import ControlLogic.Proofs.Analysis.DataFlow
import ControlLogic.Proofs.Plant.Loading
import ControlLogic.Proofs.Analysis.WellFormed
import ControlLogic.Proofs.OrderedSet.Refinement
import ControlLogic.Proofs.Legacy.FirstDeclaration
import ControlLogic.Proofs.StructuredText.InsertedComment
import ControlLogic.Proofs.StructuredText.LayoutReading
import ControlLogic.Proofs.StructuredText.NestedSections
import ControlLogic.Proofs.Exchange.SourceKept
import ControlLogic.Proofs.Exchange.Regenerated
import ControlLogic.Proofs.Diagram.Outputs
import ControlLogic.Proofs.Analysis.Mentions
import ControlLogic.Proofs.Analysis.TagSearch
import ControlLogic.Proofs.Analysis.FlowJoin
import ControlLogic.Proofs.Table
import ControlLogic.Proofs.Fault
import ControlLogic.Proofs.Analysis.RoutineEntries
import ControlLogic.Proofs.Analysis.DrawnEdges
import ControlLogic.Proofs.Analysis.BranchActions
import ControlLogic.Proofs.StateMachine.Closed
import ControlLogic.Proofs.StateMachine.Choice
import ControlLogic.Proofs.Text.Search
import ControlLogic.Proofs.Text.WholeWord
import ControlLogic.Proofs.StructuredText.ReservedWords
import ControlLogic.Proofs.StateMachine.AssignmentLines
import ControlLogic.Proofs.Text.Numeral
import ControlLogic.Proofs.Overlay.TagText
import ControlLogic.Proofs.Overlay.TagReading
import ControlLogic.Proofs.Source.BlockText
import ControlLogic.Proofs.StructuredText.DeclaredNames
import ControlLogic.Proofs.Source.BlockSearch
import ControlLogic.Proofs.Source.DeclaredTags
