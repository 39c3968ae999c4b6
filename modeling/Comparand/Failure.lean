import Comparand.Capability
import Comparand.Formula.Fault

/-!
# Failures

Everything that can go wrong when operands are built, read and compared, one constructor for each
cause. `Failure.isTypeMismatch` singles out the failures that only say that a value does not fit the
operand it is compared with; a set passes over them while it looks for a member.
-/
namespace Comparand
open Formula (Fault)

/-- The kinds of operands. -/
inductive Kind where
  | string
  | number
  | arithmetic
  | set
  | variable
  deriving DecidableEq, Repr

def Kind.name : Kind → String
  | .string => "String"
  | .number => "Number"
  | .arithmetic => "Arithmetic"
  | .set => "Set"
  | .variable => "Variable"

/-- What a value was expected to be. -/
inductive Shape where
  | number
  | integer
  | boolean
  | text
  | set
  | array
  deriving DecidableEq, Repr

def Shape.description : Shape → String
  | .number => "a number"
  | .integer => "an integer"
  | .boolean => "a boolean"
  | .text => "text"
  | .set => "a set"
  | .array => "an array"

/-- Why two operands are not equivalent. Operands are given by their texts. -/
inductive Mismatch where
  | kinds (left right : String) (leftKind rightKind : Kind)
  | cardinalities (left right : String)
  /-- Members of either set that are left over when all equivalent ones are paired off. -/
  | members (unmatched : List String)
  | values (left right : String)
  deriving DecidableEq

namespace Mismatch

def unmatched : Mismatch → List String
  | .members unmatched => unmatched
  | _ => []

def message : Mismatch → String
  | .kinds left right leftKind rightKind =>
    left ++ " and " ++ right ++ " are of different kinds (" ++ leftKind.name ++ " and " ++
      rightKind.name ++ ")"
  | .cardinalities left right =>
    "Sets " ++ left ++ " and " ++ right ++ " do not have the same cardinality"
  | .members unmatched => "No match for the following elements: " ++ ", ".intercalate unmatched
  | .values left right => "Operands " ++ left ++ " and " ++ right ++ " represent different values"

end Mismatch

inductive Failure where
  /-- A comparison outside the capabilities of the operand. -/
  | unsupportedOperation (kind : Kind) (capability : Capability) (operation : String)
  /-- A value, given by its text, that has no reading as what a comparison needs. -/
  | coercionFailure (value : String) (expected : Shape)
  | nonOperandMember (item : String)
  | nonNumericLiteral (value : String)
  | unresolvedIdentifier (name : String) (scopes : List String)
  /-- A token that refers to a variable and is not written like one. -/
  | invalidIdentifier (token : String)
  | emptySeparator
  /-- Source text whose parentheses do not match. -/
  | tokenize (cause : Fault)
  /-- Text that is no formula, or a formula without a value. -/
  | unsafeExpression (expression : String) (cause : Fault)
  | equivalenceMismatch (mismatch : Mismatch)
  | missingContextValue (path : String)
  /-- A context that holds something else than expected at a path. -/
  | contextTypeMismatch (path found : String) (expected : Shape)
  deriving DecidableEq

namespace Failure

def isTypeMismatch : Failure → Bool
  | .unsupportedOperation .. | .coercionFailure .. => true
  | _ => false

def message : Failure → String
  | .unsupportedOperation kind capability operation =>
    kind.name ++ " operands do not support " ++ capability.name ++ " operations (called '" ++
      operation ++ "')."
  | .coercionFailure value expected => "\"" ++ value ++ "\" is not " ++ expected.description ++ "."
  | .nonOperandMember item =>
    "Item \"" ++ item ++ "\" is not an operand, so it cannot be a member of a set."
  | .nonNumericLiteral value => "Literal \"" ++ value ++ "\" is not a number."
  | .unresolvedIdentifier name scopes =>
    "Cannot resolve '" ++ name ++ "' in scope '" ++ ":".intercalate scopes ++ "'."
  | .invalidIdentifier token => "Token \"" ++ token ++ "\" is not a valid identifier."
  | .emptySeparator => "The namespace separator cannot be empty."
  | .tokenize cause => "Cannot tokenize expression: " ++ cause.message
  | .unsafeExpression expression cause =>
    "Cannot evaluate '" ++ expression ++ "': " ++ cause.message
  | .equivalenceMismatch mismatch => mismatch.message
  | .missingContextValue path => "Context has no value at '" ++ path ++ "'."
  | .contextTypeMismatch path found expected =>
    "Context value at '" ++ path ++ "' is " ++ found ++ ", expected " ++ expected.description ++ "."

end Failure

end Comparand
