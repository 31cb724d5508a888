import MixedInteger.CommandLine.Arguments
import MixedInteger.CommandLine.Command
import MixedInteger.CommandLine.Display
import MixedInteger.CommandLine.Outcome
import MixedInteger.Constraint
import MixedInteger.Decimal
import MixedInteger.Decimal.Shortest
import MixedInteger.Decimal.Style
import MixedInteger.Document
import MixedInteger.Document.Json
import MixedInteger.Expression
import MixedInteger.Expression.Argument
import MixedInteger.Expression.Text
import MixedInteger.FileSystem
import MixedInteger.Json
import MixedInteger.Json.Form
import MixedInteger.Json.Quoted
import MixedInteger.Json.Reader
import MixedInteger.Json.Token
import MixedInteger.Json.Writer
import MixedInteger.LpText
import MixedInteger.Main
import MixedInteger.Model
import MixedInteger.Model.Tally
import MixedInteger.Proofs.Acceptance
import MixedInteger.Proofs.Agreement
import MixedInteger.Proofs.Arithmetic
import MixedInteger.Proofs.CodePoints
import MixedInteger.Proofs.Coefficients
import MixedInteger.Proofs.Collected
import MixedInteger.Proofs.Concord
import MixedInteger.Proofs.Declaration
import MixedInteger.Proofs.Decoding
import MixedInteger.Proofs.Desugaring
import MixedInteger.Proofs.Elements
import MixedInteger.Proofs.Endings
import MixedInteger.Proofs.Entries
import MixedInteger.Proofs.Evaluation
import MixedInteger.Proofs.Events
import MixedInteger.Proofs.Exits
import MixedInteger.Proofs.Exported
import MixedInteger.Proofs.Forms
import MixedInteger.Proofs.Formula
import MixedInteger.Proofs.Generated
import MixedInteger.Proofs.Handout
import MixedInteger.Proofs.Identity
import MixedInteger.Proofs.Keys
import MixedInteger.Proofs.Launch
import MixedInteger.Proofs.Laws
import MixedInteger.Proofs.Layout
import MixedInteger.Proofs.Leaves
import MixedInteger.Proofs.Leftover
import MixedInteger.Proofs.Lines
import MixedInteger.Proofs.Listing
import MixedInteger.Proofs.Lockstep
import MixedInteger.Proofs.Magnitude
import MixedInteger.Proofs.Markup
import MixedInteger.Proofs.Meaning
import MixedInteger.Proofs.Nearest
import MixedInteger.Proofs.Numerals
import MixedInteger.Proofs.Operations
import MixedInteger.Proofs.Opposites
import MixedInteger.Proofs.Outcomes
import MixedInteger.Proofs.Packing
import MixedInteger.Proofs.Parsing
import MixedInteger.Proofs.Path
import MixedInteger.Proofs.Rendering
import MixedInteger.Proofs.Respacing
import MixedInteger.Proofs.RoundTrips
import MixedInteger.Proofs.Rounding
import MixedInteger.Proofs.SameNumbers
import MixedInteger.Proofs.Scopes
import MixedInteger.Proofs.Shortest
import MixedInteger.Proofs.Sides
import MixedInteger.Proofs.Signs
import MixedInteger.Proofs.Solid
import MixedInteger.Proofs.Spaced
import MixedInteger.Proofs.Store
import MixedInteger.Proofs.Summands
import MixedInteger.Proofs.Support
import MixedInteger.Proofs.Tallies
import MixedInteger.Proofs.Tokens
import MixedInteger.Proofs.Zeros
import MixedInteger.Quantity
import MixedInteger.Relation
import MixedInteger.Report
import MixedInteger.Report.Document
import MixedInteger.Report.Lines
import MixedInteger.Settings
import MixedInteger.Settings.Json
import MixedInteger.Solution
import MixedInteger.Solution.Json
import MixedInteger.Solver
import MixedInteger.Solver.Error
import MixedInteger.Solver.Event
import MixedInteger.Solver.Exchange
import MixedInteger.Solver.Script
import MixedInteger.Solver.Status
import MixedInteger.Table
import MixedInteger.Text.Blank
import MixedInteger.Text.Line
import MixedInteger.Tolerance
import MixedInteger.Variable
import MixedInteger.Variable.Json
import MixedInteger.Variable.Naming
import MixedInteger.Variable.Set
import MixedInteger.Xml
import MixedInteger.Xml.Character
import MixedInteger.Xml.Markup
