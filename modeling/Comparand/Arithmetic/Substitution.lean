import Comparand.Arithmetic

/-!
# Substitution

To evaluate an expression, the texts of its variables' values are put in place of the identifiers,
and the result is evaluated as a formula. That happens in two stages, qualified identifiers before
bare ones. A text that begins with a minus sign is put in parentheses, so that it reads as the value
it stands for wherever it is put, as in `(-3) ** 2`. Tokens are joined by single spaces, so they
never run together, and `^` is written `**`.
-/
namespace Comparand.Arithmetic
variable {V : Type} [Variable V]

inductive Stage where
  /-- Identifiers that contain the separator. -/
  | qualified
  /-- All other identifiers. -/
  | bare
  deriving DecidableEq, Repr

def Stage.appliesTo (stage : Stage) (separator identifier : String) : Bool :=
  Text.occursIn separator.toList identifier.toList == decide (stage = .qualified)

/-- The text that stands for a value inside a formula. -/
def operandText (value : Value) : String :=
  let text := value.print
  if text.startsWith "-" then "(" ++ text ++ ")" else text

/-- Substitutes while each variable is read once; `memo` holds the texts that are known already. -/
def substituteFrom (a : Arithmetic V) (stage : Stage) (context : Context)
    (memo : List (String × String)) : List String → Except Failure (List String)
  | [] => .ok []
  | token :: tokens =>
    match a.bindings.lookup token with
    | none => do return token :: (← substituteFrom a stage context memo tokens)
    | some v =>
      if !stage.appliesTo a.separator token then do
        return token :: (← substituteFrom a stage context memo tokens)
      else match memo.lookup token with
        | some text => do return text :: (← substituteFrom a stage context memo tokens)
        | none => do
          let text := operandText (← Variable.read v context)
          return text :: (← substituteFrom a stage context ((token, text) :: memo) tokens)

/-- Runs one stage over a list of tokens. -/
def substitute (a : Arithmetic V) (tokens : List String) (stage : Stage) (context : Context) :
    Except Failure (List String) :=
  substituteFrom a stage context [] tokens

/-- Writes `**` for `^`. -/
def spellPowers (text : String) : String :=
  String.ofList (text.toList.flatMap fun c => if c = '^' then ['*', '*'] else [c])

/-- The formula that an expression is under a context. -/
def substituted (a : Arithmetic V) (context : Context) : Except Failure String := do
  let tokens ← a.substitute a.flattened .qualified context
  let tokens ← a.substitute tokens .bare context
  return spellPowers (" ".intercalate tokens)

/-- The value of an expression under a context. -/
def evaluate (a : Arithmetic V) (context : Context) : Except Failure Float := do
  let formula ← a.substituted context
  (Formula.evaluate formula).mapError (.unsafeExpression formula)

end Comparand.Arithmetic
