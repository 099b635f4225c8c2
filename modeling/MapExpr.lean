import MapExpr.Command
import MapExpr.Entities
import MapExpr.Eval
import MapExpr.Expr
import MapExpr.Library
import MapExpr.Main
import MapExpr.Number
import MapExpr.Operation
import MapExpr.Parse
import MapExpr.Parse.Rules
import MapExpr.Position
import MapExpr.Proofs.Command.Output
import MapExpr.Proofs.Command.Settings
import MapExpr.Proofs.Evaluation.Alike
import MapExpr.Proofs.Evaluation.Authority
import MapExpr.Proofs.Evaluation.Binding
import MapExpr.Proofs.Evaluation.Choice
import MapExpr.Proofs.Evaluation.Complement
import MapExpr.Proofs.Evaluation.Eager
import MapExpr.Proofs.Evaluation.Equality
import MapExpr.Proofs.Evaluation.Erasure
import MapExpr.Proofs.Evaluation.FaultPlaces
import MapExpr.Proofs.Evaluation.Hosts
import MapExpr.Proofs.Evaluation.Indexing
import MapExpr.Proofs.Evaluation.Logic
import MapExpr.Proofs.Evaluation.Names
import MapExpr.Proofs.Evaluation.Reporting
import MapExpr.Proofs.Evaluation.Sequence
import MapExpr.Proofs.Evaluation.Substring
import MapExpr.Proofs.Evaluation.Texts
import MapExpr.Proofs.Grammar.Phrase
import MapExpr.Proofs.Grammar.Spine
import MapExpr.Proofs.Grammar.Unambiguous
import MapExpr.Proofs.Layout
import MapExpr.Proofs.Lexing.Longest
import MapExpr.Proofs.Lexing.Pattern
import MapExpr.Proofs.Lexing.Scan
import MapExpr.Proofs.Lexing.Seams
import MapExpr.Proofs.Number.Conversion
import MapExpr.Proofs.Number.Exact
import MapExpr.Proofs.Number.Order
import MapExpr.Proofs.Number.ReadBack
import MapExpr.Proofs.Number.Sum
import MapExpr.Proofs.Number.Value
import MapExpr.Proofs.Parsing.Batch
import MapExpr.Proofs.Parsing.Bottom
import MapExpr.Proofs.Parsing.Completeness
import MapExpr.Proofs.Parsing.Continuation
import MapExpr.Proofs.Parsing.Invariant
import MapExpr.Proofs.Parsing.Moves
import MapExpr.Proofs.Parsing.Reading
import MapExpr.Proofs.Parsing.Refusal
import MapExpr.Proofs.Parsing.Relocation
import MapExpr.Proofs.Parsing.Segments
import MapExpr.Proofs.Parsing.Soundness
import MapExpr.Proofs.Parsing.Targets
import MapExpr.Proofs.Parsing.Termination
import MapExpr.Proofs.Places.Faults
import MapExpr.Proofs.Places.Leftover
import MapExpr.Proofs.Places.Tokens
import MapExpr.Proofs.Printing.Printer
import MapExpr.Proofs.Printing.RoundTrip
import MapExpr.Proofs.Printing.Surface
import MapExpr.Proofs.Safety.Arguments
import MapExpr.Proofs.Safety.Breach
import MapExpr.Proofs.Safety.Numbers
import MapExpr.Proofs.Safety.Parser
import MapExpr.Proofs.Safety.Program
import MapExpr.Proofs.Safety.Scanner
import MapExpr.Proofs.Safety.Windows
import MapExpr.Proofs.Tree
import MapExpr.Registry
import MapExpr.Text
import MapExpr.Text.Casing
import MapExpr.Token
import MapExpr.Token.Scan
import MapExpr.Value
import MapExpr.Value.Read
