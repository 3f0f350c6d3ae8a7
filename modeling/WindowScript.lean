import WindowScript.Source.Position
import WindowScript.Source.LineIndex
import WindowScript.Text.Blank
import WindowScript.Text.Unprintable
import WindowScript.Text.Extending
import WindowScript.Text.Quoted
import WindowScript.Number.Integer
import WindowScript.Number.Real
import WindowScript.Number.Shortest
import WindowScript.Number.Numeral
import WindowScript.Token.Basic
import WindowScript.Token.Lexer
import WindowScript.Program.Expr
import WindowScript.Program.Attributes
import WindowScript.Program.Statement
import WindowScript.Parser.Basic
import WindowScript.Parser.Expression
import WindowScript.Parser.Statement
import WindowScript.Parser.Program
import WindowScript.Value.Bindings
import WindowScript.Value.Basic
import WindowScript.Value.Display
import WindowScript.Value.Equality
import WindowScript.Evaluation.Error
import WindowScript.Evaluation.Operators
import WindowScript.Evaluation.Host
import WindowScript.Evaluation.Builtins
import WindowScript.Evaluation.Evaluate
import WindowScript.Evaluation.Session
import WindowScript.Python.Text
import WindowScript.Python.Expression
import WindowScript.Python.Draft
import WindowScript.Python.Interface
import WindowScript.Python.Program
import WindowScript.Script
import WindowScript.CommandLine.Options
import WindowScript.CommandLine.Directory
import WindowScript.CommandLine.Respond
import WindowScript.Main
import WindowScript.Proofs.Program.Relocation
import WindowScript.Proofs.Parser.Correspondence
import WindowScript.Proofs.Parser.Positions
import WindowScript.Proofs.Parser.Rendering
import WindowScript.Proofs.Parser.Nesting
import WindowScript.Proofs.Parser.ExpressionRoundTrip
import WindowScript.Proofs.Parser.RoundTrip
import WindowScript.Proofs.Parser.Grammar
import WindowScript.Proofs.Parser.Soundness
import WindowScript.Proofs.Source.LineIndex
import WindowScript.Proofs.Token.Rules
import WindowScript.Proofs.Token.Cutting
import WindowScript.Proofs.Token.Places
import WindowScript.Proofs.Token.Tokenize
import WindowScript.Proofs.Evaluation.Correspondence
import WindowScript.Proofs.Evaluation.Builtins
import WindowScript.Proofs.Evaluation.Depth
import WindowScript.Proofs.Evaluation.Sessions
import WindowScript.Proofs.Evaluation.Pipes
import WindowScript.Proofs.Parser.Failures
import WindowScript.Proofs.Program.Nodes
import WindowScript.Proofs.Evaluation.Operators
import WindowScript.Proofs.Evaluation.Invariants
import WindowScript.Proofs.Evaluation.Failures
import WindowScript.Proofs.Script.Failures
import WindowScript.Proofs.Program.Vocabulary
import WindowScript.Proofs.Program.Direct
import WindowScript.Proofs.Number.Rounding
import WindowScript.Proofs.Number.Texts
import WindowScript.Proofs.Python.Phrases
import WindowScript.Proofs.Python.Reading
import WindowScript.Proofs.Python.Uniqueness
import WindowScript.Proofs.Value.Bindings
import WindowScript.Proofs.Python.Objects
import WindowScript.Proofs.Evaluation.Data
import WindowScript.Proofs.Evaluation.Repetition
import WindowScript.Proofs.Python.Meaning
import WindowScript.Proofs.Python.Delimiters
import WindowScript.Proofs.Python.Lines
import WindowScript.Proofs.Python.Blocks
import WindowScript.Proofs.Python.Layout
import WindowScript.Proofs.Evaluation.Frames
import WindowScript.Proofs.Program.Names
import WindowScript.Proofs.Evaluation.Scopes
import WindowScript.Proofs.Python.Names
import WindowScript.Proofs.Python.Positions
import WindowScript.Proofs.Token.Arrangement
import WindowScript.Proofs.Script.Layout
import WindowScript.Proofs.Parser.Recognizer
import WindowScript.Proofs.Parser.ExpressionRecognition
import WindowScript.Proofs.Parser.Recognition
import WindowScript.Proofs.Parser.OpenDelimiters
import WindowScript.Proofs.Parser.Levels
import WindowScript.Proofs.Parser.RecursionBound
import WindowScript.Proofs.Parser.FirstFault
import WindowScript.Proofs.Script.Height
import WindowScript.Proofs.Evaluation.Parameters
import WindowScript.Proofs.Evaluation.Termination
import WindowScript.Proofs.Token.Quotation
import WindowScript.Proofs.Python.Literal
import WindowScript.Proofs.Program.Sameness
import WindowScript.Proofs.Value.Equality
import WindowScript.Proofs.Value.Display
import WindowScript.Proofs.Python.Widgets
import WindowScript.Proofs.Parser.Completeness
import WindowScript.Proofs.Parser.Correspondence
import WindowScript.Proofs.Parser.Padded
import WindowScript.Proofs.Parser.Separators
import WindowScript.Proofs.Parser.MissingEnd
import WindowScript.Proofs.Number.Casts
import WindowScript.Proofs.Number.Conversions
import WindowScript.Proofs.Token.Numerals
import WindowScript.Proofs.Evaluation.Lengths
import WindowScript.Proofs.Script.Lengths
import WindowScript.Proofs.Text.Bytes
import WindowScript.Proofs.Program.Attributes
import WindowScript.Proofs.Evaluation.Watching
import WindowScript.Proofs.Evaluation.Order
import WindowScript.Proofs.Evaluation.Records
