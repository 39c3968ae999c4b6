import Comparand.Proofs.Order
import Comparand.Proofs.OwnValues

/-!
# Three comparisons of two numbers

Numbers, arithmetic and variables that read a number or an integer answer each of their comparisons
from two numbers: their own, and the one that the value given to them reads as. Arithmetic reads the
value first, variables read it last, but each does so whatever it is asked. So all three comparisons
fail with one failure, or all three have an answer, and then one of them holds unless one number is
not-a-number.
-/
namespace Comparand

theorem PathVariable.read_numeric {p : PathVariable} (kind : p.kind = .number ∨ p.kind = .integer)
    {context : Context} {actual : Value} (h : p.read context = .ok actual) :
    (∃ x, actual = .real x) ∨ ∃ n, actual = .integer n := by
  obtain ⟨raw, hread⟩ := exists_of_read h
  rcases kind with hkind | hkind <;> rw [hkind, FieldKind.read?] at hread
  · obtain ⟨x, -, hx⟩ := Option.map_eq_some_iff.mp hread
    exact .inl ⟨x, hx.symm⟩
  · obtain ⟨n, -, hn⟩ := Option.map_eq_some_iff.mp hread
    exact .inr ⟨n, hn.symm⟩

namespace Operand
variable {V : Type} [Variable V]

/-- Numbers, arithmetic, and variables that read a number or an integer at a path. -/
inductive Numeric : Operand V → Prop
  | number (x : Float) : Numeric (.number x)
  | arithmetic (expression : Arithmetic V) : Numeric (.arithmetic expression)
  | variable (v : V) (p : PathVariable) : p.kind = .number ∨ p.kind = .integer →
      Variable.capabilities v = p.kind.capabilities → Variable.read v = p.read →
      Numeric (.variable v)

/-- The number that the value of an operand reads as. -/
def asReal (operand : Operand V) (context : Context) : Except Failure Float := do
  (← operand.toValue context).asReal

/-- The number of an operand and that of a value, read in the order in which comparisons do. -/
def sides (operand : Operand V) (value : Value) (context : Context) :
    Except Failure (Float × Float) :=
  match operand with
  | .arithmetic expression => do
    let y ← value.asReal
    return (← asReal (.arithmetic expression) context, y)
  | operand => do
    let x ← operand.asReal context
    return (x, ← value.asReal)

variable {operand : Operand V} {value : Value} {context : Context}

theorem sides_eq_ok {x y : Float} (h : operand.sides value context = .ok (x, y)) :
    operand.asReal context = .ok x ∧ value.asReal = .ok y := by
  cases operand with
  | arithmetic expression =>
    obtain ⟨_, hy, h⟩ := bind_eq_ok_iff.mp h
    obtain ⟨_, hx, h⟩ := bind_eq_ok_iff.mp h
    cases h
    exact ⟨hx, hy⟩
  | string | number | set | «variable» =>
    obtain ⟨_, hx, h⟩ := bind_eq_ok_iff.mp h
    obtain ⟨_, hy, h⟩ := bind_eq_ok_iff.mp h
    cases h
    exact ⟨hx, hy⟩

theorem sides_eq_error {failure : Failure} (h : operand.sides value context = .error failure) :
    operand.asReal context = .error failure ∨ value.asReal = .error failure := by
  cases operand with
  | arithmetic expression =>
    rcases bind_eq_error_iff.mp h with hy | ⟨_, _, h⟩
    · exact .inr hy
    · rcases bind_eq_error_iff.mp h with hx | ⟨_, _, h⟩
      · exact .inl hx
      · cases h
  | string | number | set | «variable» =>
    rcases bind_eq_error_iff.mp h with hx | ⟨_, _, h⟩
    · exact .inl hx
    · rcases bind_eq_error_iff.mp h with hy | ⟨_, _, h⟩
      · exact .inr hy
      · cases h

theorem answer_eq_reply {question : Question} (h : operand.supports question.capability) :
    operand.answer question context = operand.reply question context := by
  rw [answer, require, if_pos h, ok_bind]

theorem Numeric.supports (numeric : operand.Numeric) :
    operand.supports .equality ∧ operand.supports .inequality := by
  cases numeric with
  | number | arithmetic => exact ⟨rfl, rfl⟩
  | «variable» v p kind hcapabilities _ =>
    rw [Operand.supports, Operand.supports, capabilities, hcapabilities]
    rcases kind with hkind | hkind <;> rw [hkind] <;> exact ⟨rfl, rfl⟩

/-- A comparison with a value, and what it asks of the two numbers. -/
inductive Compares (value : Value) : Question → (Float → Float → Bool) → Prop
  | equals : Compares value (.equals value) fun x y => x == y
  | lessThan : Compares value (.lessThan value) fun x y => decide (x < y)
  | greaterThan : Compares value (.greaterThan value) fun x y => decide (y < x)

/-- Whatever a numeric operand is asked, it looks for the same two numbers. -/
theorem Numeric.answer_eq (numeric : operand.Numeric) {question : Question}
    {holds : Float → Float → Bool} (compares : Compares value question holds) (context : Context) :
    operand.answer question context =
      (operand.sides value context).map fun s => holds s.1 s.2 := by
  obtain ⟨equality, inequality⟩ := numeric.supports
  have supported : operand.supports question.capability := by
    cases compares <;> assumption
  rw [answer_eq_reply supported]
  cases numeric with
  | number x =>
    have hreply : (Operand.number x : Operand V).reply question context =
        (do return holds x (← value.asReal)) := by
      cases compares <;> rfl
    simp only [hreply, sides, asReal, toValue, ok_bind, Value.asReal_real]
    cases value.asReal <;> rfl
  | arithmetic expression =>
    have hreply : (Operand.arithmetic expression).reply question context = (do
        let y ← value.asReal
        return holds (← expression.evaluate context) y) := by
      cases compares <;> rfl
    rw [hreply, sides, asReal, toValue]
    cases value.asReal with
    | error => rfl
    | ok y => cases expression.evaluate context <;> rfl
  | «variable» v p kind _ hread =>
    cases hactual : Variable.read v context with
    | error failure =>
      have hreply : (Operand.variable v).reply question context = .error failure := by
        cases compares <;>
          simp only [reply, matchesValue, Variable.equals, Variable.lessThan, Variable.greaterThan,
            hactual, error_bind]
      simp only [hreply, sides, asReal, toValue, hactual, error_bind]
      rfl
    | ok actual =>
      have hreply : (Operand.variable v).reply question context = (do
          let x ← actual.asReal
          return holds x (← value.asReal)) := by
        have hequal : actual.isEqualTo value = (do
            let x ← actual.asReal
            return x == (← value.asReal)) := by
          rcases PathVariable.read_numeric kind (hread ▸ hactual) with ⟨x, rfl⟩ | ⟨n, rfl⟩ <;> rfl
        cases compares <;>
          simp only [reply, matchesValue, Variable.equals, Variable.lessThan, Variable.greaterThan,
            hactual, ok_bind, hequal, Value.isLessThan, Value.isGreaterThan]
      simp only [hreply, sides, asReal, toValue, hactual, ok_bind]
      cases actual.asReal with
      | error => rfl
      | ok x => cases value.asReal <;> rfl

/--
The comparisons of a numeric operand with a value all fail with one failure, that of reading either
number, or they all have the answer that the two numbers give. Exactly one of the answers is true
then, or none if one of the numbers is not-a-number.
-/
theorem comparisons_agree (numeric : operand.Numeric) (value : Value) (context : Context) :
    (∃ failure,
      (operand.asReal context = .error failure ∨ value.asReal = .error failure) ∧
      operand.equals value context = .error failure ∧
      operand.answer (.lessThan value) context = .error failure ∧
      operand.answer (.greaterThan value) context = .error failure) ∨
    ∃ x y,
      operand.asReal context = .ok x ∧ value.asReal = .ok y ∧
      operand.equals value context = .ok (x == y) ∧
      operand.answer (.lessThan value) context = .ok (decide (x < y)) ∧
      operand.answer (.greaterThan value) context = .ok (decide (y < x)) ∧
      [x == y, decide (x < y), decide (y < x)].count true =
        if x.isNaN || y.isNaN then 0 else 1 := by
  rw [← answer_equals, numeric.answer_eq .equals, numeric.answer_eq .lessThan,
    numeric.answer_eq .greaterThan]
  cases hsides : operand.sides value context with
  | error failure => exact .inl ⟨failure, sides_eq_error hsides, rfl, rfl, rfl⟩
  | ok pair =>
    obtain ⟨x, y⟩ := pair
    obtain ⟨hx, hy⟩ := sides_eq_ok hsides
    exact .inr ⟨x, y, hx, hy, rfl, rfl, rfl, Binary64.count_comparisons x y⟩

theorem countField_comparisons_nan :
    (Operand.variable countField).Numeric ∧
      (Operand.variable countField).asReal (.object [("n", .integer 7)]) = .ok 7 ∧
      (Value.text " NaN ").asReal = .ok Binary64.nan ∧
      (Operand.variable countField).equals (.text " NaN ") (.object [("n", .integer 7)]) =
        .ok false ∧
      (Operand.variable countField).answer (.lessThan (.text " NaN "))
        (.object [("n", .integer 7)]) = .ok false ∧
      (Operand.variable countField).answer (.greaterThan (.text " NaN "))
        (.object [("n", .integer 7)]) = .ok false := by
  have numeric : (Operand.variable countField).Numeric := .variable _ countField (.inr rfl) rfl rfl
  have own : (Operand.variable countField).asReal (.object [("n", .integer 7)]) = .ok 7 := by
    decide +kernel
  have other : (Value.text " NaN ").asReal = .ok Binary64.nan := by decide +kernel
  refine ⟨numeric, own, other, ?_⟩
  rcases comparisons_agree numeric (.text " NaN ") (.object [("n", .integer 7)]) with
    ⟨failure, hfailure | hfailure, -⟩ | ⟨x, y, hx, hy, hequal, hless, hgreater, -⟩
  · cases own.symm.trans hfailure
  · cases other.symm.trans hfailure
  · obtain rfl : 7 = x := Except.ok.inj (own.symm.trans hx)
    obtain rfl : Binary64.nan = y := Except.ok.inj (other.symm.trans hy)
    refine ⟨hequal.trans ?_, hless.trans ?_, hgreater.trans ?_⟩ <;> decide +kernel

end Operand

end Comparand
