import Comparand.Formula.Expr

/-!
# Expressions from tokens

Binding, from loose to tight: `+` and `-`; `*` and `/`, both to the left; a leading minus; `**`, to
the right. So a minus negates the whole power on its right, and an exponent may have a sign of its
own.

Tokens are read one at a time over a stack of unfinished constructions: open groups, minus signs and
operators whose right side is still to come. Either an operand is wanted, or one stands complete. An
operator first finishes every construction on the stack that binds at least as tightly as it pulls;
a closing parenthesis and the end finish all, down to the innermost open group. The first token that
fits nowhere is reported by what was wanted there.
-/
namespace Comparand.Formula

/-- A construction whose last operand is still to come. -/
inductive Frame where
  | group (position : Nat)
  | negate (position : Nat)
  | binary (left : Expr) (operator : Operator) (position : Nat)
  deriving DecidableEq

/-- How tightly an operator holds the operand on its right. -/
def Operator.binding : Operator → Nat
  | .add | .sub => 1
  | .mul | .div => 2
  | .pow => 4

/-- How tightly a minus sign holds its operand. -/
def negationBinding : Nat := 3

/-- How tightly an operator pulls at the operand on its left; a power lets nothing finish first. -/
def Operator.pull : Operator → Nat
  | .add | .sub => 1
  | .mul | .div => 2
  | .pow => 5

/-- Finishes the constructions that bind at least as tightly as `pull`, up to an open group. -/
def finish (pull : Nat) : Expr → List Frame → Expr × List Frame
  | e, .negate position :: stack =>
    if pull ≤ negationBinding then finish pull (.negate e position) stack
    else (e, .negate position :: stack)
  | e, .binary left operator position :: stack =>
    if pull ≤ operator.binding then finish pull (.binary left operator e position) stack
    else (e, .binary left operator position :: stack)
  | e, stack => (e, stack)

/-- Where the innermost open group begins. -/
def innermostGroup? : List Frame → Option Nat
  | [] => none
  | .group position :: _ => some position
  | _ :: stack => innermostGroup? stack

inductive State where
  /-- An operand has to come next. -/
  | wanting (stack : List Frame)
  /-- An operand is complete. -/
  | having (operand : Expr) (stack : List Frame)
  deriving DecidableEq

/-- What is wrong with a token, or with none, behind a complete operand. -/
def leftover (stack : List Frame) (otherwise : Fault) : Fault :=
  match innermostGroup? stack with
  | some position => .expectedClosing position
  | none => otherwise

/-- Reads one token. -/
def State.step : State → Placed → Except Fault State
  | .wanting stack, (token, position) =>
    match token with
    | .number value => .ok (.having (.literal value position) stack)
    | .minus => .ok (.wanting (.negate position :: stack))
    | .opening => .ok (.wanting (.group position :: stack))
    | other => .error (.unexpectedToken other.print position)
  | .having operand stack, (token, position) =>
    match token.operator? with
    | some operator =>
      let (left, stack) := finish operator.pull operand stack
      .ok (.wanting (.binary left operator position :: stack))
    | none =>
      let extra : Fault := .trailingTokens token.print position
      match token, finish 0 operand stack with
      | .closing, (e, .group _ :: stack) => .ok (.having e stack)
      | _, _ => .error (leftover stack extra)

/-- Reads the end of the tokens. -/
def State.close : State → Except Fault Expr
  | .wanting _ => .error .unexpectedEnd
  | .having operand stack =>
    match finish 0 operand stack with
    | (e, []) => .ok e
    | _ => .error (leftover stack .unexpectedEnd)

/-- The expression that a list of tokens spells. -/
def Expr.ofTokens (tokens : List Placed) : Except Fault Expr := do
  (← tokens.foldlM State.step (State.wanting [])).close

end Comparand.Formula
