import GuidedTour.CommandLine.Launch
import GuidedTour.CommandLine.Options
import GuidedTour.Content.Bundled
import GuidedTour.Content.Directory
import GuidedTour.Content.Load
import GuidedTour.Content.Record
import GuidedTour.Content.Sections
import GuidedTour.Data.Calendar
import GuidedTour.Data.Value
import GuidedTour.Decimal.Arithmetic
import GuidedTour.Decimal.Double
import GuidedTour.Decimal.Layout
import GuidedTour.Decimal.Shortest
import GuidedTour.Editor.AutoClose
import GuidedTour.Editor.Basic
import GuidedTour.Editor.Buffer
import GuidedTour.Interpreter.Basic
import GuidedTour.Interpreter.Function
import GuidedTour.Interpreter.Program
import GuidedTour.Language.Basic
import GuidedTour.Language.Registry
import GuidedTour.Log
import GuidedTour.Main
import GuidedTour.Outcome.Course
import GuidedTour.Outcome.Reading
import GuidedTour.Outcome.Spelling
import GuidedTour.Outcome.Value
import GuidedTour.Session.Basic
import GuidedTour.Session.Section
import GuidedTour.Session.State
import GuidedTour.Text.Basic
import GuidedTour.Text.Blank
import GuidedTour.Text.CodePoint
import GuidedTour.Text.Digit
import GuidedTour.Text.Inflow
import GuidedTour.Text.LineEnds
import GuidedTour.Text.Printable
import GuidedTour.Text.Quoted
import GuidedTour.Text.Ranges
import GuidedTour.Text.Utf8
import GuidedTour.Text.WordChar
import GuidedTour.Theme.Basic
import GuidedTour.Theme.Palette
import GuidedTour.Token.Basic
import GuidedTour.Token.Class
import GuidedTour.Token.Listing
import GuidedTour.Token.Matching
import GuidedTour.Token.Pattern
import GuidedTour.Token.Rule
import GuidedTour.Token.Span
import GuidedTour.Token.Stream
import GuidedTour.Tour.Look
import GuidedTour.Tour.View
import GuidedTour.Tour.Window
import GuidedTour.Yaml.Char
import GuidedTour.Yaml.Cursor
import GuidedTour.Yaml.Document
import GuidedTour.Yaml.Node.Basic
import GuidedTour.Yaml.Node.Graph
import GuidedTour.Yaml.Node.Merge
import GuidedTour.Yaml.Scalar.Binary
import GuidedTour.Yaml.Scalar.Moment
import GuidedTour.Yaml.Scalar.Number
import GuidedTour.Yaml.Scalar.Tag
import GuidedTour.Yaml.Token.Basic
import GuidedTour.Yaml.Token.Block
import GuidedTour.Yaml.Token.Plain
import GuidedTour.Yaml.Token.Property
import GuidedTour.Yaml.Token.Quoted
import GuidedTour.Yaml.Token.Stream
import GuidedTour.Proofs.CommandLine.Options
import GuidedTour.Proofs.Content.Acceptance
import GuidedTour.Proofs.Content.Fault
import GuidedTour.Proofs.Editor.Debounce
import GuidedTour.Proofs.Editor.Freshness
import GuidedTour.Proofs.Editor.Typing
import GuidedTour.Proofs.Interpreter.Program
import GuidedTour.Proofs.Language.Agreement
import GuidedTour.Proofs.Language.Registry
import GuidedTour.Proofs.Outcome.Dangling
import GuidedTour.Proofs.Outcome.Fault
import GuidedTour.Proofs.Outcome.Float
import GuidedTour.Proofs.Outcome.Grammar
import GuidedTour.Proofs.Outcome.Literal
import GuidedTour.Proofs.Outcome.Positions
import GuidedTour.Proofs.Outcome.PrefixFree
import GuidedTour.Proofs.Outcome.Result
import GuidedTour.Proofs.Outcome.Spelling
import GuidedTour.Proofs.Session.Fault
import GuidedTour.Proofs.Session.History
import GuidedTour.Proofs.Session.Sharing
import GuidedTour.Proofs.Text.Inflow
import GuidedTour.Proofs.Token.Alone
import GuidedTour.Proofs.Token.Expression
import GuidedTour.Proofs.Token.FirstMatch
import GuidedTour.Proofs.Token.Legacy
import GuidedTour.Proofs.Token.Lines
import GuidedTour.Proofs.Token.Order
import GuidedTour.Proofs.Token.Scan
import GuidedTour.Proofs.Token.StringLiteral
import GuidedTour.Proofs.Token.Surroundings
import GuidedTour.Proofs.Token.Tiling
import GuidedTour.Proofs.Token.Word
import GuidedTour.Proofs.Tour.Window
import GuidedTour.Proofs.Yaml.Building
import GuidedTour.Proofs.Yaml.Lexing
import GuidedTour.Proofs.Yaml.Reading
