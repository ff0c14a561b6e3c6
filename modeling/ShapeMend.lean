import ShapeMend.Command.Arguments
import ShapeMend.Command.Host
import ShapeMend.Command.Options
import ShapeMend.Command.Run
import ShapeMend.Event
import ShapeMend.Files.Path
import ShapeMend.Files.Storage
import ShapeMend.Files.Tree
import ShapeMend.Files.Wildcard
import ShapeMend.Fixture.Directive
import ShapeMend.Fixture.Report
import ShapeMend.Json.Basic
import ShapeMend.Json.Pointer
import ShapeMend.Json.Read
import ShapeMend.Json.ReadError
import ShapeMend.Json.Scan
import ShapeMend.Json.Writer
import ShapeMend.Keyed
import ShapeMend.Main
import ShapeMend.Mend.Basic
import ShapeMend.Mend.Primitive
import ShapeMend.Module.Binding
import ShapeMend.Module.Emit
import ShapeMend.Number.Binary64
import ShapeMend.Number.Decimal
import ShapeMend.Number.Magnitude
import ShapeMend.Number.Shortest
import ShapeMend.Query.Basic
import ShapeMend.Query.Reader
import ShapeMend.Query.Token
import ShapeMend.Query.Value
import ShapeMend.Schema.Basic
import ShapeMend.Schema.Descriptor
import ShapeMend.Schema.Descriptor.Decode
import ShapeMend.Schema.Descriptor.Read
import ShapeMend.Schema.Shape
import ShapeMend.Script.Declared
import ShapeMend.Script.Flaw
import ShapeMend.Script.Reader.Bracket
import ShapeMend.Script.Reader.Cursor
import ShapeMend.Script.Reader.Module
import ShapeMend.Script.Reader.Type
import ShapeMend.Script.Token
import ShapeMend.Script.Token.Gap
import ShapeMend.Script.Token.Numeral
import ShapeMend.Script.Token.Quoted
import ShapeMend.Script.Token.Scan
import ShapeMend.Script.Token.Template
import ShapeMend.Script.Tree
import ShapeMend.Script.Tree.Numeral
import ShapeMend.Text.Alphabetic
import ShapeMend.Text.Ranges
import ShapeMend.Text.Quoting
import ShapeMend.Text.Letter
import ShapeMend.Text.Numeric
import ShapeMend.Text.Source
import ShapeMend.Text.Position
import ShapeMend.Workspace
import ShapeMend.Proofs.Mend.Fields
import ShapeMend.Proofs.Mend.References
import ShapeMend.Proofs.Mend.Contexts
import ShapeMend.Proofs.Mend.FixedPoint
import ShapeMend.Proofs.Mend.Sources
import ShapeMend.Proofs.Workspace.Coherence
import ShapeMend.Proofs.Number.Integers
import ShapeMend.Proofs.Script.Lexing
import ShapeMend.Proofs.Script.Reading
import ShapeMend.Proofs.Script.RoundTrip
import ShapeMend.Proofs.Mend.Completeness
import ShapeMend.Proofs.Script.Lengths
import ShapeMend.Proofs.Script.Tiling
import ShapeMend.Proofs.Schema.Descriptors
import ShapeMend.Proofs.Schema.DescriptorTexts
import ShapeMend.Proofs.Script.Balance
import ShapeMend.Proofs.Script.Nesting
import ShapeMend.Proofs.Script.Groups
import ShapeMend.Proofs.Script.BalancedScripts
import ShapeMend.Proofs.Schema.WellFormed
import ShapeMend.Proofs.Schema.Entries
import ShapeMend.Proofs.Workspace.WellFormed
import ShapeMend.Proofs.Script.Faults
import ShapeMend.Proofs.Script.Errors
import ShapeMend.Proofs.Script.Accounts
import ShapeMend.Proofs.Script.Pieces
import ShapeMend.Proofs.Module.Bindings
import ShapeMend.Proofs.Module.Numbers
import ShapeMend.Proofs.Script.Statements
import ShapeMend.Proofs.Module.Layout
import ShapeMend.Proofs.Module.OpaqueItems
import ShapeMend.Proofs.Workspace.Batches
import ShapeMend.Proofs.Number.Spacing
import ShapeMend.Proofs.Number.Layouts
import ShapeMend.Proofs.Module.Faithful
import ShapeMend.Proofs.Json.Bytes
import ShapeMend.Proofs.Json.Reads
import ShapeMend.Proofs.Json.Strings
import ShapeMend.Proofs.Json.Nested
import ShapeMend.Proofs.Number.Rounding
import ShapeMend.Proofs.Json.Numerals
import ShapeMend.Proofs.Json.Values
import ShapeMend.Proofs.Schema.Loading
import ShapeMend.Proofs.Schema.Heights
import ShapeMend.Proofs.Workspace.Splitting
import ShapeMend.Proofs.Mend.Depths
import ShapeMend.Proofs.Mend.Siblings
import ShapeMend.Proofs.Mend.Repairs
import ShapeMend.Proofs.Mend.TopLevel
import ShapeMend.Proofs.Schema.Collecting
import ShapeMend.Proofs.Mend.Entries
import ShapeMend.Proofs.Mend.Untracked
import ShapeMend.Proofs.Mend.Composition
import ShapeMend.Proofs.Mend.WrittenOut
import ShapeMend.Proofs.Script.Strings
import ShapeMend.Proofs.Workspace.Held
import ShapeMend.Proofs.Workspace.Locating
import ShapeMend.Proofs.Module.Allocation
import ShapeMend.Proofs.Module.Uses
import ShapeMend.Proofs.Module.EmittedUses
import ShapeMend.Proofs.Module.Hygiene
import ShapeMend.Proofs.Script.CodeUnits
import ShapeMend.Proofs.Script.Templates
import ShapeMend.Proofs.Script.Layouts
import ShapeMend.Proofs.Script.ItemRuns
import ShapeMend.Proofs.Mend.InPlace
import ShapeMend.Proofs.Script.NestedSpans
import ShapeMend.Proofs.Workspace.Exporting
import ShapeMend.Proofs.Text.Slices
import ShapeMend.Proofs.Script.Checked.Lexemes
import ShapeMend.Proofs.Script.Checked.Tokens
import ShapeMend.Proofs.Script.Checked.Machine
import ShapeMend.Proofs.Script.Checked.Recordings
import ShapeMend.Proofs.Script.Checked.Brackets
import ShapeMend.Proofs.Script.Checked.Magnitudes
import ShapeMend.Proofs.Script.Checked.TypeReaders
import ShapeMend.Proofs.Script.Checked.ItemReaders
import ShapeMend.Proofs.Script.Checked.FrontEnd
import ShapeMend.Proofs.Script.Checked.Openings
import ShapeMend.Proofs.Script.Checked.Places
