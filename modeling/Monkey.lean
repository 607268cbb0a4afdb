import Monkey.Diagnostic.Basic
import Monkey.Diagnostic.Report
import Monkey.Parser.Expression
import Monkey.Parser.Levels
import Monkey.Parser.Power
import Monkey.Parser.Routine
import Monkey.Parser.State
import Monkey.Parser.Statement
import Monkey.Parser.Table
import Monkey.Proofs.Diagnostic.Alignment
import Monkey.Proofs.Diagnostic.Caret
import Monkey.Proofs.Diagnostic.Report
import Monkey.Proofs.Grammar.Chain
import Monkey.Proofs.Grammar.Completeness
import Monkey.Proofs.Grammar.Depth
import Monkey.Proofs.Grammar.Derivation
import Monkey.Proofs.Grammar.Integers
import Monkey.Proofs.Grammar.Levels
import Monkey.Proofs.Grammar.NestingLimit
import Monkey.Proofs.Grammar.RoundTrip
import Monkey.Proofs.Grammar.Soundness
import Monkey.Proofs.Grammar.Unambiguous
import Monkey.Proofs.Parser.Activation
import Monkey.Proofs.Parser.Blocks
import Monkey.Proofs.Parser.Boundary
import Monkey.Proofs.Parser.Cascade
import Monkey.Proofs.Parser.Charging
import Monkey.Proofs.Parser.Climbing
import Monkey.Proofs.Parser.Closing
import Monkey.Proofs.Parser.Compositional
import Monkey.Proofs.Parser.Consumption
import Monkey.Proofs.Parser.Contract
import Monkey.Proofs.Parser.Echo
import Monkey.Proofs.Parser.Failure
import Monkey.Proofs.Parser.Isolation
import Monkey.Proofs.Parser.Layout
import Monkey.Proofs.Parser.Lookahead
import Monkey.Proofs.Parser.Moves
import Monkey.Proofs.Parser.Nesting
import Monkey.Proofs.Parser.Overflow
import Monkey.Proofs.Parser.Progress
import Monkey.Proofs.Parser.Provenance
import Monkey.Proofs.Parser.Reading
import Monkey.Proofs.Parser.Recipe
import Monkey.Proofs.Parser.Recovery
import Monkey.Proofs.Parser.Recursion
import Monkey.Proofs.Parser.Registration
import Monkey.Proofs.Parser.Relocation
import Monkey.Proofs.Parser.Reporting
import Monkey.Proofs.Parser.Running
import Monkey.Proofs.Parser.Session
import Monkey.Proofs.Parser.Shallow
import Monkey.Proofs.Parser.SourceOrder
import Monkey.Proofs.Parser.Standard
import Monkey.Proofs.Parser.Termination
import Monkey.Proofs.Parser.Window
import Monkey.Proofs.Source.Encoding
import Monkey.Proofs.Source.Line
import Monkey.Proofs.Source.Lookup
import Monkey.Proofs.Source.Slice
import Monkey.Proofs.Text.Row
import Monkey.Proofs.Token.Concatenation
import Monkey.Proofs.Token.Cursor
import Monkey.Proofs.Token.Lexical
import Monkey.Proofs.Token.Lossless
import Monkey.Proofs.Token.Order
import Monkey.Proofs.Token.Scanning
import Monkey.Proofs.Token.Seam
import Monkey.Proofs.Token.Spacing
import Monkey.Proofs.Token.Spelling
import Monkey.Proofs.Tree.Alike
import Monkey.Proofs.Tree.Count
import Monkey.Proofs.Tree.Nodes
import Monkey.Proofs.Tree.Paths
import Monkey.Proofs.Tree.Relocation
import Monkey.Source.Bytes
import Monkey.Source.Line
import Monkey.Source.Span
import Monkey.Text.Blank
import Monkey.Text.Extending
import Monkey.Text.Quoted
import Monkey.Text.Ranges
import Monkey.Text.Unprintable
import Monkey.Token.Basic
import Monkey.Token.Integer
import Monkey.Token.Kind
import Monkey.Token.Lexeme
import Monkey.Token.Lexer
import Monkey.Tree.Alike
import Monkey.Tree.Basic
import Monkey.Tree.Rendering
