import Comparand.Formula.Expr.OfTokens

/-!
# Formulas

The restricted arithmetic as a whole: text to tokens, tokens to an expression, the expression to a
double. What goes wrong first on that way is the answer.
-/
namespace Comparand.Formula

/-- The value of a formula given as text. -/
def evaluate (text : String) : Except Fault Float := do
  (← Expr.ofTokens (← Token.scan text)).value

end Comparand.Formula
