import LoxExpr.Command.LogFilter
import LoxExpr.Command.Options
import LoxExpr.Command.Program
import LoxExpr.Command.Prompt
import LoxExpr.Console
import LoxExpr.Expr.Basic
import LoxExpr.Expr.Evaluation
import LoxExpr.Expr.Reader
import LoxExpr.Expr.Reading
import LoxExpr.Fault
import LoxExpr.Main
import LoxExpr.Number.Binary64
import LoxExpr.Number.Decimal
import LoxExpr.Number.Layout
import LoxExpr.Number.Shortest
import LoxExpr.Piece
import LoxExpr.Proofs.Evaluation.Alike
import LoxExpr.Proofs.Evaluation.Failure
import LoxExpr.Proofs.Evaluation.Kinds
import LoxExpr.Proofs.Evaluation.Order
import LoxExpr.Proofs.Evaluation.Regular
import LoxExpr.Proofs.Grammar.Agreement
import LoxExpr.Proofs.Grammar.Climbing
import LoxExpr.Proofs.Grammar.Derivation
import LoxExpr.Proofs.Grammar.Descent
import LoxExpr.Proofs.Grammar.Embedding
import LoxExpr.Proofs.Grammar.Expectation
import LoxExpr.Proofs.Grammar.Recognition
import LoxExpr.Proofs.Grammar.Refusal
import LoxExpr.Proofs.Grammar.Rendering
import LoxExpr.Proofs.Lexis.Blanking
import LoxExpr.Proofs.Lexis.Coverage
import LoxExpr.Proofs.Lexis.Cutting
import LoxExpr.Proofs.Lexis.Enclosure
import LoxExpr.Proofs.Lexis.LineBreak
import LoxExpr.Proofs.Lexis.LineNumber
import LoxExpr.Proofs.Lexis.Resumption
import LoxExpr.Proofs.Lexis.Rule
import LoxExpr.Proofs.Lexis.Spacing
import LoxExpr.Proofs.Lexis.Spelling
import LoxExpr.Proofs.Lexis.Tail
import LoxExpr.Proofs.Lexis.Tokenization
import LoxExpr.Proofs.Number.Bits
import LoxExpr.Proofs.Number.ReadBack
import LoxExpr.Proofs.Number.Writing
import LoxExpr.Proofs.Reading.Answer
import LoxExpr.Proofs.Reading.Behind
import LoxExpr.Proofs.Reading.History
import LoxExpr.Proofs.Reading.Passage
import LoxExpr.Proofs.Reading.Procedure
import LoxExpr.Proofs.Reading.Relabelling
import LoxExpr.Proofs.Reading.Strict
import LoxExpr.Proofs.Reading.Termination
import LoxExpr.Proofs.Run.Chain
import LoxExpr.Proofs.Run.Composition
import LoxExpr.Proofs.Run.Conversation
import LoxExpr.Proofs.Run.Course
import LoxExpr.Proofs.Run.ExitCode
import LoxExpr.Proofs.Run.Frame
import LoxExpr.Proofs.Run.LastLine
import LoxExpr.Proofs.Run.LineNumber
import LoxExpr.Proofs.Run.ReadBack
import LoxExpr.Proofs.Run.Safety
import LoxExpr.Proofs.Run.TreeEquality
import LoxExpr.Run
import LoxExpr.Scan
import LoxExpr.Session
import LoxExpr.Text.Blank
import LoxExpr.Text.Pattern
import LoxExpr.Text.Pattern.Class
import LoxExpr.Text.Pattern.Flaw
import LoxExpr.Text.Pattern.Item
import LoxExpr.Text.Pattern.Reading
import LoxExpr.Text.Printable
import LoxExpr.Text.Quoted
import LoxExpr.Text.Similarity
import LoxExpr.Text.Visible
import LoxExpr.Token
import LoxExpr.Token.Keyword
import LoxExpr.Token.Operator
import LoxExpr.Value
import LoxExpr.Value.Arithmetic
