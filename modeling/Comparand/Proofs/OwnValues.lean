import Comparand.Operand.Comparison
import Comparand.Proofs.Integers
import Comparand.Proofs.Results
import Comparand.Proofs.Sameness
import Comparand.Variable.Shared

/-!
# Operands and their own values

An operand compares with the value that it denotes as that value compares with itself. The values
that are not equal to themselves are not-a-number and the integers that have no reading as a double,
for numbers are compared as doubles whatever they were read as.
-/
namespace Comparand

namespace Value

theorem asReal_real (x : Float) : (Value.real x).asReal = .ok x := rfl

theorem asReal_integer (n : Int64) :
    (Value.integer n).asReal =
      if n.toInt.natAbs ≤ Word.maxSafe then .ok (Binary64.ofInt n.toInt)
      else .error ((Value.integer n).coercionFailure .number) := by
  rw [asReal, real?, Word.toFloat?]
  split <;> rfl

theorem isEqualTo_self_iff (value : Value) :
    value.isEqualTo value = .ok true ↔
      (∀ x, value = .real x → ¬ x.isNaN) ∧
        ∀ n, value = .integer n → n.toInt.natAbs ≤ Word.maxSafe := by
  cases value with
  | integer n =>
    simp only [isEqualTo, asReal_integer]
    by_cases safe : n.toInt.natAbs ≤ Word.maxSafe
    · have equal : Binary64.ofInt n.toInt == Binary64.ofInt n.toInt :=
        Float.beq_self_iff.mpr (Binary64.ofInt_ne_nan n.toInt)
      simp [safe, equal, pure, Except.pure]
    · simp [safe]
  | real x => simp [isEqualTo, asReal_real, Float.beq_self_iff, pure, Except.pure]
  | bool b => simp [isEqualTo, asBool]
  | text t => simp [isEqualTo, print, toElement, Element.print]
  | set items =>
    have equal : Element.sameSet items items := Element.same_refl (.set items)
    simp [isEqualTo, asSet, equal, pure, Except.pure]

end Value

theorem PathVariable.exists_of_read {v : PathVariable} {context : Context} {value : Value}
    (h : v.read context = .ok value) : ∃ raw, v.kind.read? raw = some value := by
  simp only [read] at h
  split at h
  · cases h
  · split at h
    · cases h
    · split at h
      · cases h
      · rename_i hread
        cases h
        exact ⟨_, hread⟩

namespace Operand

/-- Whatever kind an operand is of, it compares with a value as its own value does. -/
theorem matchesValue_toValue {V : Type} [Variable V] {operand : Operand V} {context : Context}
    {actual : Value} (h : toValue context operand = .ok actual) (value : Value) :
    operand.matchesValue value context = actual.isEqualTo value := by
  cases operand with
  | string text =>
    cases h
    exact congrArg _ (Bool.beq_comm)
  | number x =>
    cases h
    simp only [matchesValue, Value.isEqualTo, Value.asReal_real, ok_bind]
  | arithmetic expression =>
    rw [toValue] at h
    obtain ⟨x, hx, hvalue⟩ := bind_eq_ok_iff.mp h
    cases hvalue
    simp only [matchesValue, Value.isEqualTo, Value.asReal_real, hx, ok_bind]
  | set members =>
    rw [toValue] at h
    obtain ⟨xs, hxs, hvalue⟩ := bind_eq_ok_iff.mp h
    cases hvalue
    simp only [matchesValue, Value.isEqualTo, resolve, hxs, ok_bind, pure_bind]
    congr 1
    funext expected
    rw [Element.sameSet_comm]
  | «variable» v =>
    rw [toValue] at h
    rw [matchesValue, Variable.equals, h]
    rfl

theorem supports_equality (operand : Operand PathVariable) : operand.supports .equality := by
  cases operand with
  | «variable» v =>
    obtain ⟨path, kind, history⟩ := v
    cases kind <;> rfl
  | _ => rfl

/--
An operand equals its own value if and only if that is neither not-a-number nor an integer beyond
those that are read as numbers.
-/
theorem equals_own_value_iff {operand : Operand PathVariable} {context : Context} {value : Value}
    (h : toValue context operand = .ok value) :
    operand.equals value context = .ok true ↔
      (∀ x, value = .real x → ¬ x.isNaN) ∧
        ∀ n, value = .integer n → n.toInt.natAbs ≤ Word.maxSafe := by
  rw [equals, require, if_pos (supports_equality operand), ok_bind, matchesValue_toValue h]
  exact Value.isEqualTo_self_iff value

def countField : PathVariable := { path := ["n"], kind := .integer }

/-- A field may hold an integer that it cannot be compared with. -/
theorem countField_ne_own_value :
    toValue (.object [("n", .integer 9007199254740992)]) (.variable countField) =
        .ok (.integer 9007199254740992) ∧
      (Operand.variable countField).equals (.integer 9007199254740992)
        (.object [("n", .integer 9007199254740992)]) =
          .error (.coercionFailure "9007199254740992" .number) :=
  ⟨by decide +kernel, by decide +kernel⟩

def assortment : Operand PathVariable :=
  .set [.variable countField, .set [.string "a", .number (-0)], .number 0]

/-- What they denote, where the integer has become the nearest double. -/
def assortmentValue : Value :=
  .set [.number 9007199254740992, .set [.text "a", .number (-0)], .number 0]

theorem toValue_assortment :
    toValue (.object [("n", .integer 9007199254740993)]) assortment = .ok assortmentValue := by
  decide +kernel

theorem assortment_equals_own_value :
    toValue (.object [("n", .integer 9007199254740993)]) assortment = .ok assortmentValue ∧
      assortment.equals assortmentValue (.object [("n", .integer 9007199254740993)]) = .ok true :=
  ⟨toValue_assortment, (equals_own_value_iff toValue_assortment).mpr ⟨nofun, nofun⟩⟩

end Operand

end Comparand
