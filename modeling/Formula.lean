import Formula.Token.Cursor
import Formula.Expr.Walk
import Formula.Workbench
import Formula.Main
import Formula.Proofs.Derivative.Exact
import Formula.Proofs.Derivative.Dual
import Formula.Proofs.Derivative.Partial
import Formula.Proofs.Derivative.Rules
import Formula.Proofs.Derivative.Mixed
import Formula.Proofs.Derivative.Written
import Formula.Proofs.Number.Packing
import Formula.Proofs.Number.Nearest
import Formula.Proofs.Number.RoundTrip
import Formula.Proofs.Number.Numeral
import Formula.Proofs.Reading.Term
import Formula.Proofs.Reading.Spelling
import Formula.Proofs.Reading.Run
import Formula.Proofs.Reading.Reached
import Formula.Proofs.Reading.Refusal
import Formula.Proofs.Reading.Position
import Formula.Proofs.Reading.Fault
import Formula.Proofs.Reading.ErrorPlace
import Formula.Proofs.Reading.Grammar
import Formula.Proofs.Reading.Earliest
import Formula.Proofs.Expr.Nesting
import Formula.Proofs.Reading.OperatorFirst
import Formula.Proofs.Expr.Matching
import Formula.Proofs.Number.Equality
import Formula.Proofs.Derivative.Matching
import Formula.Proofs.Expr.Same
import Formula.Proofs.Reading.OperatorLast
import Formula.Proofs.Reading.Bracketed
import Formula.Proofs.Expr.Variadic
import Formula.Proofs.Reading.Bare
import Formula.Proofs.Reading.Nesting
import Formula.Proofs.Reading.Unbracketed
import Formula.Proofs.Reading.Spacing
import Formula.Proofs.Reading.Extra
import Formula.Proofs.Reading.Cause
import Formula.Proofs.Reading.Caret
import Formula.Proofs.Arity.Tree
import Formula.Proofs.Arity.Checked
import Formula.Proofs.Arity.Run
import Formula.Proofs.Derivative.Forward
import Formula.Proofs.CommandLine.Line
import Formula.Proofs.CommandLine.Laws
import Formula.Proofs.CommandLine.Record
import Formula.Proofs.CommandLine.Standard.Taken
import Formula.Proofs.CommandLine.Standard.Read
import Formula.Proofs.CommandLine.Standard.Output
import Formula.Proofs.CommandLine.Answer
import Formula.Proofs.CommandLine.Conversion
import Formula.Proofs.Descent.Bytes
import Formula.Proofs.Descent.Scanner
import Formula.Proofs.Descent.Cursor
import Formula.Proofs.Descent.Parser
import Formula.Proofs.Descent.Steps
import Formula.Proofs.Descent.OperatorFirst
import Formula.Proofs.Descent.OperatorLast
import Formula.Proofs.Descent.Stack
import Formula.Proofs.Descent.Total
import Formula.Proofs.Expr.Equality
import Formula.Proofs.Expr.Undefined
import Formula.Proofs.Derivative.Dependence
import Formula.Expr.Visitor
import Formula.Proofs.Expr.Preorder
import Formula.Proofs.Expr.Events
import Formula.Proofs.Expr.Walk
import Formula.Proofs.Expr.Depth
import Formula.Proofs.Derivative.Depth
