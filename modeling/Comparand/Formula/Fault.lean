import Comparand.Number.Shortest

/-!
# What can be wrong with a formula

One constructor for each cause: the text does not split into tokens, the tokens do not form an
expression, or the arithmetic has no answer among the doubles. Positions are byte offsets into the
text of the formula.
-/
namespace Comparand.Formula

inductive Fault where
  /-- Text that is no token. -/
  | unexpectedCharacter (text : String) (position : Nat)
  /-- A token where an operand or an opening parenthesis has to stand. -/
  | unexpectedToken (token : String) (position : Nat)
  | tooManyTokens (limit : Nat)
  | unexpectedEnd
  /-- The group opened at `position` is complete but not closed. -/
  | expectedClosing (position : Nat)
  | trailingTokens (token : String) (position : Nat)
  | literalTooLarge (text : String)
  | divisionByZero
  /-- A negative base under an exponent that is no integer. -/
  | complexResult (base exponent : Float)
  /-- A power of two finite numbers that is infinite. -/
  | overflow (base exponent : Float)
  deriving DecidableEq

def Fault.message : Fault → String
  | .unexpectedCharacter text position => s!"Unexpected input '{text}' at position {position}."
  | .unexpectedToken token position => s!"Unexpected token '{token}' at position {position}."
  | .tooManyTokens limit => s!"Expression has more than {limit} tokens."
  | .unexpectedEnd => "Unexpected end of expression."
  | .expectedClosing position =>
    s!"Expected closing parenthesis ')' for the group opened at position {position}."
  | .trailingTokens token position =>
    s!"Extra tokens after expression at position {position}: {token}"
  | .literalTooLarge text => s!"Literal '{text}' is too large."
  | .divisionByZero => "Division by zero."
  | .complexResult base exponent =>
    Shortest.positional base ++ " ** " ++ Shortest.positional exponent ++ " has no real result."
  | .overflow base exponent =>
    "Numerical result out of range while computing " ++ Shortest.positional base ++ " ** " ++
      Shortest.positional exponent ++ "."

end Comparand.Formula
