import Reckoner.Text.Bytes
import Reckoner.Text.Ranges
import Reckoner.Text.Blank
import Reckoner.Text.Word
import Reckoner.Text.Decimal
import Reckoner.Text.Quoted
import Reckoner.Text.Cluster.Class
import Reckoner.Text.Cluster
import Reckoner.Text.Backspace
import Reckoner.Error
import Reckoner.Arithmetic
import Reckoner.Operator
import Reckoner.Expr
import Reckoner.Expr.Print
import Reckoner.Expr.Eval
import Reckoner.Token
import Reckoner.Token.WordClass
import Reckoner.Token.UnicodeWords
import Reckoner.Token.Scan
import Reckoner.Token.Role
import Reckoner.Log
import Reckoner.Engine.Climbing
import Reckoner.Engine.Frames
import Reckoner.Engine.ShuntingYard
import Reckoner.Engine
import Reckoner.Line
import Reckoner.Report
import Reckoner.Cli.Command
import Reckoner.Cli
import Reckoner.Main
import Reckoner.Proofs.Reading
import Reckoner.Proofs.Agreement.Frames
import Reckoner.Proofs.Agreement.ShuntingYard
import Reckoner.Proofs.Faults
import Reckoner.Proofs.Grammar
import Reckoner.Proofs.Scanning
import Reckoner.Proofs.Lexing
import Reckoner.Proofs.Source
import Reckoner.Proofs.Trees
import Reckoner.Proofs.Numbers
import Reckoner.Proofs.RoundTrip
import Reckoner.Proofs.Arithmetic.Range
import Reckoner.Proofs.Arithmetic.Shifts
import Reckoner.Proofs.Arithmetic.Quotients
import Reckoner.Proofs.Arithmetic.Powers
import Reckoner.Proofs.Evaluation
import Reckoner.Proofs.Agreement.Activations
import Reckoner.Proofs.Reachable
import Reckoner.Proofs.Viability
import Reckoner.Proofs.Bracketing
import Reckoner.Proofs.Registered
import Reckoner.Proofs.CommandLine
import Reckoner.Proofs.Lexemes
import Reckoner.Proofs.Diagnosis
import Reckoner.Proofs.Places
import Reckoner.Proofs.Spacing
import Reckoner.Proofs.Operands
import Reckoner.Proofs.Patterns
import Reckoner.Proofs.Tiling
import Reckoner.Proofs.Runs
import Reckoner.Proofs.Lines
import Reckoner.Proofs.Reports
import Reckoner.Proofs.Consumption
import Reckoner.Proofs.Inorder
import Reckoner.Proofs.Canonical
import Reckoner.Proofs.Segments
import Reckoner.Proofs.Sameness
import Reckoner.Proofs.Symbols
import Reckoner.Proofs.Readability
import Reckoner.Proofs.Resumption
