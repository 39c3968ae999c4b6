import Comparand.Arithmetic.Substitution

/-!
# Operands

An operand denotes a value under a context: a text, a number, an arithmetic expression, a set of
operands, or a variable. `Operand.toValue` gives that value. The kind of an operand fixes its
capabilities, except that each variable declares its own.
-/
namespace Comparand

/-- The capabilities that all operands of a kind have; variables have none in common. -/
def Kind.capabilities? : Kind → Option Capabilities
  | .string => some (.ofList [.equality])
  | .number => some (.ofList [.equality, .inequality])
  | .arithmetic => some (.ofList [.equality, .inequality])
  | .set => some (.ofList [.equality, .inequality, .membership])
  | .variable => none

inductive Operand (V : Type) where
  | string (text : String)
  | number (value : Float)
  | arithmetic (expression : Arithmetic V)
  | set (members : List (Operand V))
  | variable (v : V)

namespace Operand
variable {V : Type}

/-- A text operand from any value, by the text of the value. -/
def stringOf (value : Value) : Operand V := .string value.print

/-- A number operand from a literal, which may still be text. -/
def numberOf (literal : Value) : Except Failure (Operand V) :=
  match literal.real? with
  | some x => .ok (.number x)
  | none => .error (.nonNumericLiteral literal.print)

/-- A set from parts, all of which have to be operands. -/
def setOf (items : List (Operand V ⊕ Value)) : Except Failure (Operand V) := do
  let members ← items.mapM fun
    | .inl operand => .ok operand
    | .inr value => .error (.nonOperandMember value.print)
  return .set members

def kind : Operand V → Kind
  | .string _ => .string
  | .number _ => .number
  | .arithmetic _ => .arithmetic
  | .set _ => .set
  | .variable _ => .variable

variable [Variable V]

def capabilities : Operand V → Capabilities
  | .variable v => Variable.capabilities v
  | operand => operand.kind.capabilities?.getD .empty

def supports (operand : Operand V) (capability : Capability) : Bool :=
  operand.capabilities.contains capability

/-- Fails unless the operand has a capability, naming the operation that asks for it. -/
def require (operand : Operand V) (capability : Capability) (operation : String) :
    Except Failure Unit :=
  if operand.supports capability then .ok ()
  else .error (.unsupportedOperation operand.kind capability operation)

mutual

/-- An operand as it is shown in messages. -/
def print : Operand V → String
  | .string text => "\"" ++ text ++ "\""
  | .number value => Shortest.positional value
  | .arithmetic expression => expression.print
  | .set members => braced (printAll members)
  | .variable v => Variable.name v

def printAll : List (Operand V) → List String
  | [] => []
  | member :: members => print member :: printAll members

end

mutual

/-- The value that an operand denotes under a context. -/
def toValue (context : Context) : Operand V → Except Failure Value
  | .string text => .ok (.text text)
  | .number value => .ok (.real value)
  | .arithmetic expression => do return .real (← expression.evaluate context)
  | .set members => do return .set (Element.collect (← elements context members))
  | .variable v => Variable.read v context

/-- The elements that the members of a set denote, repetitions included. -/
def elements (context : Context) : List (Operand V) → Except Failure (List Element)
  | [] => .ok []
  | member :: members => do
    let value ← toValue context member
    return value.toElement :: (← elements context members)

end

/-- The set that some members denote. -/
def resolve (members : List (Operand V)) (context : Context) : Except Failure (List Element) := do
  return Element.collect (← elements context members)

end Operand

end Comparand
