import Comparand.Formula.Token

/-!
# Expressions

The tree of a formula has literals, negations and the five operators; parentheses leave no node.
Each node knows the byte offset of the token that it stands for. `Expr.value` works a tree out from
left to right over the doubles and stops at the first step that has no answer.
-/
namespace Comparand.Formula

inductive Expr where
  | literal (value : Float) (position : Nat)
  | negate (operand : Expr) (position : Nat)
  | binary (left : Expr) (operator : Operator) (right : Expr) (position : Nat)
  deriving DecidableEq

/--
A power over the reals. Zero under a negative exponent is a division by zero, a negative base under
an exponent that is no integer has no real power, and no power of finite numbers is infinite.
-/
def power (base exponent : Float) : Except Fault Float :=
  if base == 0 && exponent < 0 then .error .divisionByZero
  else if base < 0 && exponent.isFinite && !Binary64.isIntegral exponent then
    .error (.complexResult base exponent)
  else
    let result := base.pow exponent
    if result.isInf && base.isFinite && exponent.isFinite then .error (.overflow base exponent)
    else .ok result

/-- One step of arithmetic. Only division by zero and powers can fail. -/
def Operator.apply (operator : Operator) (left right : Float) : Except Fault Float :=
  match operator with
  | .add => .ok (left + right)
  | .sub => .ok (left - right)
  | .mul => .ok (left * right)
  | .div => if right == 0 then .error .divisionByZero else .ok (left / right)
  | .pow => power left right

def Expr.value : Expr → Except Fault Float
  | .literal value _ => .ok value
  | .negate operand _ => do return -(← operand.value)
  | .binary left operator right _ => do
    let left ← left.value
    let right ← right.value
    operator.apply left right

end Comparand.Formula
