import Comparand.Formula.Expr

/-!
# The grammar of formulas

Five levels of binding, from loose to tight. Each rule says which tokens an expression of its level
consists of and which tree they spell; a chain of sums or of products is built up from its left
end. A rule keeps the byte offset of a numeral or of an operator and forgets those of parentheses.
The grammar does not mention how a list of tokens is read.
-/
namespace Comparand.Formula

inductive Level where
  | additive
  | multiplicative
  | unary
  | power
  | primary
  deriving DecidableEq, Repr

/-- Looser levels have the lower ranks. -/
def Level.rank : Level → Nat
  | .additive => 0
  | .multiplicative => 1
  | .unary => 2
  | .power => 3
  | .primary => 4

def Operator.token : Operator → Token
  | .add => .plus
  | .sub => .minus
  | .mul => .star
  | .div => .slash
  | .pow => .doubleStar

theorem Token.operator?_eq_some_iff {token : Token} {operator : Operator} :
    token.operator? = some operator ↔ token = operator.token := by
  cases token <;> cases operator <;> simp [operator?, Operator.token]

@[simp] theorem Operator.operator?_token (operator : Operator) :
    operator.token.operator? = some operator :=
  Token.operator?_eq_some_iff.mpr rfl

/--
`additive := multiplicative (("+" | "-") multiplicative)*`,
`multiplicative := unary (("*" | "/") unary)*`, `unary := "-" unary | power`,
`power := primary ("**" unary)?`, `primary := number | "(" additive ")"`.
-/
inductive Derives : Level → List Placed → Expr → Prop
  | term {ts : List Placed} {e : Expr} :
      Derives .multiplicative ts e → Derives .additive ts e
  | sum {ts us : List Placed} {left right : Expr} {operator : Operator} {position : Nat} :
      operator = .add ∨ operator = .sub →
      Derives .additive ts left → Derives .multiplicative us right →
      Derives .additive (ts ++ (operator.token, position) :: us)
        (.binary left operator right position)
  | factor {ts : List Placed} {e : Expr} :
      Derives .unary ts e → Derives .multiplicative ts e
  | product {ts us : List Placed} {left right : Expr} {operator : Operator} {position : Nat} :
      operator = .mul ∨ operator = .div →
      Derives .multiplicative ts left → Derives .unary us right →
      Derives .multiplicative (ts ++ (operator.token, position) :: us)
        (.binary left operator right position)
  | unsigned {ts : List Placed} {e : Expr} :
      Derives .power ts e → Derives .unary ts e
  | negation {ts : List Placed} {e : Expr} {position : Nat} :
      Derives .unary ts e → Derives .unary ((.minus, position) :: ts) (.negate e position)
  | base {ts : List Placed} {e : Expr} :
      Derives .primary ts e → Derives .power ts e
  | power {ts us : List Placed} {base exponent : Expr} {position : Nat} :
      Derives .primary ts base → Derives .unary us exponent →
      Derives .power (ts ++ (.doubleStar, position) :: us)
        (.binary base .pow exponent position)
  | number {value : Float} {position : Nat} :
      Derives .primary [(.number value, position)] (.literal value position)
  | group {ts : List Placed} {e : Expr} {opened closed : Nat} :
      Derives .additive ts e →
      Derives .primary ((.opening, opened) :: ts ++ [(.closing, closed)]) e

namespace Derives
variable {ts us : List Placed} {e left right : Expr}

theorem power_of_primary_le {level : Level} (h : Derives level ts e)
    (tight : Level.power.rank ≤ level.rank) : Derives .power ts e := by
  cases level with
  | primary => exact .base h
  | power => exact h
  | additive | multiplicative | unary => simp [Level.rank] at tight

theorem unary_of_le {level : Level} (h : Derives level ts e)
    (tight : Level.unary.rank ≤ level.rank) : Derives .unary ts e := by
  by_cases hu : level = .unary
  · exact hu ▸ h
  · apply Derives.unsigned (power_of_primary_le h _)
    cases level <;> simp_all [Level.rank]

theorem multiplicative_of_le {level : Level} (h : Derives level ts e)
    (tight : Level.multiplicative.rank ≤ level.rank) : Derives .multiplicative ts e := by
  by_cases hm : level = .multiplicative
  · exact hm ▸ h
  · apply Derives.factor (unary_of_le h _)
    cases level <;> simp_all [Level.rank]

/-- What binds tightly may stand where something looser is allowed. -/
theorem weaken {tight loose : Level} (h : Derives tight ts e) (le : loose.rank ≤ tight.rank) :
    Derives loose ts e := by
  cases loose with
  | primary => cases tight <;> first | exact h | simp [Level.rank] at le
  | power => exact power_of_primary_le h le
  | unary => exact unary_of_le h le
  | multiplicative => exact multiplicative_of_le h le
  | additive =>
    by_cases ha : tight = .additive
    · exact ha ▸ h
    · apply Derives.term (multiplicative_of_le h _)
      cases tight <;> simp_all [Level.rank]

end Derives

end Comparand.Formula
