import Scriptlet.Compile.Error
import Scriptlet.Compile.Expression
import Scriptlet.Compile.Program
import Scriptlet.Compile.Scope
import Scriptlet.Conversion.Builtin
import Scriptlet.Conversion.Equality
import Scriptlet.Conversion.Error
import Scriptlet.Conversion.Registry
import Scriptlet.Debug.Breakpoints
import Scriptlet.Debug.Session
import Scriptlet.Decimal.Arith
import Scriptlet.Decimal.Basic
import Scriptlet.Decimal.Binary
import Scriptlet.Decimal.Exponential
import Scriptlet.Decimal.Logarithm
import Scriptlet.Decimal.Power
import Scriptlet.Decimal.Remainder
import Scriptlet.Decimal.Text
import Scriptlet.Engine.Basic
import Scriptlet.Engine.Error
import Scriptlet.Engine.Expression
import Scriptlet.Engine.Options
import Scriptlet.Eval.Bindings
import Scriptlet.Eval.Error
import Scriptlet.Eval.Machine
import Scriptlet.Floating.Format
import Scriptlet.Floating.Numeral
import Scriptlet.Floating.Remainder
import Scriptlet.Floating.Shortest
import Scriptlet.Grammar.Attempt
import Scriptlet.Grammar.Nesting
import Scriptlet.Grammar.Outline
import Scriptlet.Grammar.Parse
import Scriptlet.Grammar.ParseError
import Scriptlet.Grammar.Pattern
import Scriptlet.Grammar.Reader
import Scriptlet.Grammar.Rule
import Scriptlet.Grammar.Token
import Scriptlet.Grammar.Tree
import Scriptlet.Host
import Scriptlet.Kernel.Apply
import Scriptlet.Kernel.Big
import Scriptlet.Kernel.Error
import Scriptlet.Kernel.Machine
import Scriptlet.Kind.ClassType
import Scriptlet.Kind.Operator
import Scriptlet.Kind.Primitive
import Scriptlet.Kind.ResultTy
import Scriptlet.Kind.Tag
import Scriptlet.Kind.Ty
import Scriptlet.Literal.Escape
import Scriptlet.Literal.Number
import Scriptlet.Macro
import Scriptlet.Node.Arena
import Scriptlet.Node.Binary
import Scriptlet.Node.BuildError
import Scriptlet.Node.Render
import Scriptlet.Node.Spine
import Scriptlet.Report.Ink
import Scriptlet.Report.Label
import Scriptlet.Report.Margin
import Scriptlet.Report.Page
import Scriptlet.Report.Render
import Scriptlet.Report.Snippet
import Scriptlet.Rounding
import Scriptlet.Source.Diagnostic
import Scriptlet.Source.Location
import Scriptlet.Source.Passage
import Scriptlet.Source.Span
import Scriptlet.Source.Text
import Scriptlet.Text.Blank
import Scriptlet.Text.Letter
import Scriptlet.Text.Numeral
import Scriptlet.Text.Positional
import Scriptlet.Text.Printable
import Scriptlet.Text.Quoted
import Scriptlet.Text.Ranges
import Scriptlet.Text.Width
import Scriptlet.Value.Basic
import Scriptlet.Value.Display
import Scriptlet.Value.View
import Scriptlet.Proofs.Node.Order
import Scriptlet.Proofs.Eval.Recursive
import Scriptlet.Proofs.Eval.Discipline
import Scriptlet.Proofs.Compile.Formula
import Scriptlet.Proofs.Compile.Layout
import Scriptlet.Proofs.Debug.Transparency
import Scriptlet.Proofs.Kernel.Tags
import Scriptlet.Proofs.Eval.Tagged
import Scriptlet.Proofs.Compile.Typing
import Scriptlet.Proofs.Conversion.Exact
import Scriptlet.Proofs.Conversion.Agreement
import Scriptlet.Proofs.Value.Equality
import Scriptlet.Proofs.Decimal.Rational
import Scriptlet.Proofs.Kernel.Outcome
import Scriptlet.Proofs.Kernel.Coherence
import Scriptlet.Proofs.Kernel.Rational
import Scriptlet.Proofs.Eval.Replaced
import Scriptlet.Proofs.Kernel.Lossless
import Scriptlet.Proofs.Kernel.Wrapping
import Scriptlet.Proofs.Kernel.Promotion
import Scriptlet.Proofs.Kernel.Spelled
import Scriptlet.Proofs.Kernel.Exponents
import Scriptlet.Proofs.Compile.Strong
import Scriptlet.Proofs.Compile.Grouping
import Scriptlet.Proofs.Compile.Chains
import Scriptlet.Proofs.Eval.Reached
import Scriptlet.Proofs.Debug.Visits
import Scriptlet.Proofs.Compile.Lines
import Scriptlet.Proofs.Debug.Hits
import Scriptlet.Proofs.Kind.Judged
import Scriptlet.Proofs.Eval.Exact
import Scriptlet.Proofs.Compile.Egress
import Scriptlet.Proofs.Compile.Rewriting
import Scriptlet.Proofs.Eval.Atomic
import Scriptlet.Proofs.Debug.Standing
import Scriptlet.Proofs.Debug.Definite
import Scriptlet.Proofs.Grammar.Reread
import Scriptlet.Proofs.Grammar.Pieces
import Scriptlet.Proofs.Grammar.Depth
import Scriptlet.Proofs.Grammar.Expansion
import Scriptlet.Proofs.Grammar.Insertion
import Scriptlet.Proofs.Compile.Reflow
import Scriptlet.Proofs.Node.Legible
import Scriptlet.Proofs.Node.Term
import Scriptlet.Proofs.Compile.Written
import Scriptlet.Proofs.Compile.Legible
import Scriptlet.Proofs.Compile.RoundTrip
import Scriptlet.Proofs.Source.Slices
import Scriptlet.Proofs.Text.Integers
import Scriptlet.Proofs.Grammar.Ranges
import Scriptlet.Proofs.Compile.Extent
import Scriptlet.Proofs.Node.Shape
import Scriptlet.Proofs.Compile.Shape
import Scriptlet.Proofs.Grammar.Places
import Scriptlet.Proofs.Compile.Faults
import Scriptlet.Proofs.Debug.Sites
import Scriptlet.Proofs.Engine.Places
import Scriptlet.Proofs.Eval.Limit
import Scriptlet.Proofs.Eval.Modes
import Scriptlet.Proofs.Conversion.Idempotent
import Scriptlet.Proofs.Decimal.Reading
import Scriptlet.Proofs.Conversion.Routes
import Scriptlet.Proofs.Compile.Locations
import Scriptlet.Proofs.Node.Cycles
import Scriptlet.Proofs.Node.Surgery
import Scriptlet.Proofs.Grammar.Splice
import Scriptlet.Proofs.Grammar.Exchange
import Scriptlet.Proofs.Node.RightSpine
import Scriptlet.Proofs.Compile.Graft
import Scriptlet.Proofs.Eval.Regrouped
import Scriptlet.Proofs.Compile.Enclose
import Scriptlet.Proofs.Compile.Quotation
import Scriptlet.Proofs.Node.InPlace
import Scriptlet.Proofs.Node.OperandTags
import Scriptlet.Proofs.Compile.EqualityOrder
import Scriptlet.Proofs.Literal.Escapes
import Scriptlet.Proofs.Compile.Numbers
import Scriptlet.Proofs.Report.Places
import Scriptlet.Proofs.Kind.Hierarchy
import Scriptlet.Proofs.Debug.Registered
