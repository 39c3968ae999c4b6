import Comparand.Operand
import Comparand.TokenTree.OfText

/-!
# Arithmetic from source text

From text over variables to an expression, and, over a context read by path, to its value.
Characters outside the grammar make the source unsafe; parentheses that do not match are a fault of
its structure. The separator is looked at last.
-/
namespace Comparand.Arithmetic
open Formula (Fault)

/-- The failure that a fault in the source text is. -/
def sourceFailure (source : String) (fault : Fault) : Failure :=
  match fault with
  | .unexpectedCharacter .. => .unsafeExpression source fault
  | _ => .tokenize fault

/-- The expression that a source text spells over a namespace. -/
def ofText {V : Type} (source : String) (ns : Namespace V) (separator : String) :
    Except Failure (Arithmetic V) := do
  let tokens ← (TokenTree.ofText source separator).mapError (sourceFailure source)
  ofTokens tokens ns separator

/-- The value of a source text whose identifiers are paths into the context. -/
def calculate (source : String) (context : Context) (separator : String) :
    Except Failure Float := do
  (← ofText source (Namespace.paths .number) separator).evaluate context

end Comparand.Arithmetic
