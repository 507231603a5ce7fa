import HostLisp.Comparison
import HostLisp.Conversion
import HostLisp.Crash
import HostLisp.Engine
import HostLisp.Evaluator
import HostLisp.Expr.Literal
import HostLisp.Expr.Reading
import HostLisp.Failure
import HostLisp.Floating.Arithmetic
import HostLisp.Floating.Basic
import HostLisp.Floating.Column
import HostLisp.Floating.Decimal
import HostLisp.Floating.Shortest
import HostLisp.Form
import HostLisp.Form.Action
import HostLisp.Grid
import HostLisp.Host.Catalogue
import HostLisp.Host.Native
import HostLisp.Host.Run
import HostLisp.Kind
import HostLisp.Layout
import HostLisp.Number
import HostLisp.ReadError
import HostLisp.Scope
import HostLisp.Session
import HostLisp.Settings
import HostLisp.Shape
import HostLisp.Signature
import HostLisp.Stamp
import HostLisp.State
import HostLisp.Store
import HostLisp.Table
import HostLisp.Text.Blank
import HostLisp.Text.CodeRange
import HostLisp.Text.DecimalDigit
import HostLisp.Text.Lines
import HostLisp.Text.Numeral
import HostLisp.Text.Printable
import HostLisp.Text.Quoted
import HostLisp.Text.Removal
import HostLisp.Text.UpperCase
import HostLisp.Token.Basic
import HostLisp.Token.Cursor
import HostLisp.Token.Lexer
import HostLisp.Tree
import HostLisp.TypeExpr
import HostLisp.Value.Array
import HostLisp.Value.Basic
import HostLisp.Value.Comparison
import HostLisp.Value.Flaw
import HostLisp.Value.Printer
import HostLisp.Proofs.Own
import HostLisp.Proofs.Code
import HostLisp.Proofs.Procedures
import HostLisp.Proofs.Within
import HostLisp.Proofs.Frame
import HostLisp.Proofs.Containment
import HostLisp.Proofs.Grammar
import HostLisp.Proofs.Lexemes
import HostLisp.Proofs.RoundTrip
import HostLisp.Proofs.Completion
import HostLisp.Proofs.Growth
import HostLisp.Proofs.Depth
import HostLisp.Proofs.Concatenation
import HostLisp.Proofs.Ways
import HostLisp.Proofs.Parts
import HostLisp.Proofs.Shapes
import HostLisp.Proofs.Handling
import HostLisp.Proofs.Applications
import HostLisp.Proofs.Confinement
import HostLisp.Proofs.Segmentation
import HostLisp.Proofs.Conversions
import HostLisp.Proofs.Submissions
import HostLisp.Proofs.SpecialForms
import HostLisp.Proofs.Adjacency
import HostLisp.Proofs.Unterminated
import HostLisp.Proofs.Limits
import HostLisp.Proofs.Holdings
import HostLisp.Proofs.Legible
import HostLisp.Proofs.Calling
import HostLisp.Proofs.Building
import HostLisp.Proofs.ReadingPhase
import HostLisp.Proofs.Atoms
import HostLisp.Proofs.Layout
import HostLisp.Proofs.Unions
import HostLisp.Proofs.Renaming
import HostLisp.Proofs.Anonymity
import HostLisp.Proofs.Naturality
import HostLisp.Proofs.Arguments
import HostLisp.Proofs.Pairing
import HostLisp.Proofs.Correspondence
import HostLisp.Proofs.Alike
import HostLisp.Proofs.Natives
import HostLisp.Proofs.Uniform
import HostLisp.Proofs.Endings
import HostLisp.Proofs.Recurrence
import HostLisp.Proofs.Turns
import HostLisp.Proofs.Threading
import HostLisp.Proofs.Rounding
import HostLisp.Proofs.Fidelity
import HostLisp.Proofs.Guards
import HostLisp.Proofs.Binding
import HostLisp.Proofs.Visibility
import HostLisp.Proofs.Literals
import HostLisp.Proofs.Documentation
import HostLisp.Proofs.Parameters
import HostLisp.Proofs.Blocks
import HostLisp.Proofs.Escapes
import HostLisp.Proofs.Quotation
import HostLisp.Proofs.Labels
import HostLisp.Proofs.Idempotence
import HostLisp.Proofs.Insertion
