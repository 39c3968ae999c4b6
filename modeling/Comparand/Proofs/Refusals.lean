import Comparand.Operand.Comparison
import Comparand.Proofs.Results
import Comparand.Variable.Shared

/-!
# Refused questions

An operand refuses a question exactly if it lacks the capability for it, and what it then says names
its kind, the capability and the operation. Nothing that happens behind the check gives a refusal:
readings of values fail by coercion, evaluations as formulas, and a set passes over the members that
refuse. Variables come from outside, so it is assumed of them that reading one is never refused; for
those that the library makes it is proved.
-/
namespace Comparand

/-- A step that does not fail by a refusal. -/
def Unrefused {α : Type} (x : Except Failure α) : Prop :=
  ∀ kind capability operation, x ≠ .error (.unsupportedOperation kind capability operation)

section Steps
variable {α β : Type}

theorem Unrefused.ok (a : α) : Unrefused (.ok a) := nofun

theorem Unrefused.bind {x : Except Failure α} {f : α → Except Failure β} (hx : Unrefused x)
    (hf : ∀ a, Unrefused (f a)) : Unrefused (x >>= f) := by
  intro kind capability operation h
  rcases bind_eq_error_iff.mp h with h | ⟨a, -, h⟩
  · exact hx kind capability operation h
  · exact hf a kind capability operation h

end Steps

/-! ## Values -/

namespace Value
variable (actual value : Value)

theorem unrefused_asReal : Unrefused value.asReal := by
  unfold asReal
  cases value.real? <;> nofun

theorem unrefused_asInteger : Unrefused value.asInteger := by
  unfold asInteger
  cases value.integer? <;> nofun

theorem unrefused_asSet : Unrefused value.asSet := by
  cases value <;> nofun

theorem unrefused_isEqualTo : Unrefused (actual.isEqualTo value) := by
  cases actual with
  | text | bool => exact .ok _
  | set => exact value.unrefused_asSet.bind fun _ => .ok _
  | integer | real =>
    exact (unrefused_asReal _).bind fun _ => value.unrefused_asReal.bind fun _ => .ok _

theorem unrefused_isGreaterThan : Unrefused (actual.isGreaterThan value) :=
  actual.unrefused_asReal.bind fun _ => value.unrefused_asReal.bind fun _ => .ok _

theorem unrefused_isLessThan : Unrefused (actual.isLessThan value) :=
  actual.unrefused_asReal.bind fun _ => value.unrefused_asReal.bind fun _ => .ok _

theorem unrefused_holds : Unrefused (actual.holds value) :=
  actual.unrefused_asSet.bind fun _ => .ok _

theorem unrefused_includes : Unrefused (actual.includes value) :=
  value.unrefused_asSet.bind fun _ => actual.unrefused_asSet.bind fun _ => .ok _

end Value

/-! ## Operands -/

variable {V : Type} [Variable V]

/-- No reading of a variable is refused. -/
def ReadsUnrefused (V : Type) [Variable V] : Prop :=
  ∀ (v : V) (context : Context), Unrefused (Variable.read v context)

theorem Arithmetic.unrefused_substituteFrom (reads : ReadsUnrefused V) (a : Arithmetic V)
    (stage : Stage) (context : Context) (memo : List (String × String)) (tokens : List String) :
    Unrefused (a.substituteFrom stage context memo tokens) := by
  induction tokens generalizing memo with
  | nil => exact .ok _
  | cons token tokens ih =>
    rw [substituteFrom]
    split
    · exact (ih memo).bind fun _ => .ok _
    · split
      · exact (ih memo).bind fun _ => .ok _
      · split
        · exact (ih memo).bind fun _ => .ok _
        · exact (reads _ context).bind fun _ => (ih _).bind fun _ => .ok _

theorem Arithmetic.unrefused_evaluate (reads : ReadsUnrefused V) (a : Arithmetic V)
    (context : Context) : Unrefused (a.evaluate context) := by
  have hsubstituted : Unrefused (a.substituted context) :=
    (a.unrefused_substituteFrom reads _ context _ _).bind fun _ =>
      (a.unrefused_substituteFrom reads _ context _ _).bind fun _ => .ok _
  refine hsubstituted.bind fun formula => ?_
  cases Formula.evaluate formula <;> nofun

namespace Operand

theorem unrefused_someEquals (value : Value) (context : Context) (members : List (Operand V)) :
    Unrefused (someEquals value context members) := by
  induction members with
  | nil => exact .ok _
  | cons member members ih =>
    rw [someEquals]
    split
    · exact .ok _
    · exact ih
    · rename_i failure _
      split
      · exact ih
      · rename_i other
        rintro kind capability operation ⟨⟩
        exact other rfl

theorem unrefused_allBelong (members : List (Operand V)) (context : Context)
    (items : List Element) : Unrefused (allBelong members context items) := by
  induction items with
  | nil => exact .ok _
  | cons item items ih =>
    refine (unrefused_someEquals _ context members).bind fun belongs => ?_
    split
    · exact ih
    · exact .ok _

mutual

theorem unrefused_toValue (reads : ReadsUnrefused V) (context : Context) (operand : Operand V) :
    Unrefused (toValue context operand) := by
  cases operand with
  | string | number => exact .ok _
  | arithmetic a =>
    rw [toValue]
    exact (a.unrefused_evaluate reads context).bind fun _ => .ok _
  | set members =>
    rw [toValue]
    exact (unrefused_elements reads context members).bind fun _ => .ok _
  | «variable» v => exact reads v context

theorem unrefused_elements (reads : ReadsUnrefused V) (context : Context)
    (members : List (Operand V)) : Unrefused (elements context members) := by
  cases members with
  | nil => exact .ok _
  | cons member members =>
    rw [elements]
    exact (unrefused_toValue reads context member).bind fun _ =>
      (unrefused_elements reads context members).bind fun _ => .ok _

end

theorem unrefused_matchesValue (reads : ReadsUnrefused V) (operand : Operand V) (value : Value)
    (context : Context) : Unrefused (operand.matchesValue value context) := by
  cases operand with
  | string => exact .ok _
  | number => exact value.unrefused_asReal.bind fun _ => .ok _
  | arithmetic a =>
    exact value.unrefused_asReal.bind fun _ =>
      (a.unrefused_evaluate reads context).bind fun _ => .ok _
  | set members =>
    exact value.unrefused_asSet.bind fun _ =>
      ((unrefused_elements reads context members).bind fun _ => .ok _).bind fun _ => .ok _
  | «variable» v => exact (reads v context).bind fun actual => actual.unrefused_isEqualTo value

/-- Behind the check of capabilities every question has an answer or fails for another reason. -/
theorem unrefused_reply (reads : ReadsUnrefused V) {operand : Operand V} {question : Question}
    (supported : operand.supports question.capability) (context : Context) :
    Unrefused (operand.reply question context) := by
  cases operand with
  | string text =>
    cases question with
    | equals => exact .ok _
    | _ => cases supported
  | number x =>
    cases question with
    | equals value => exact unrefused_matchesValue reads (.number x) value context
    | greaterThan value | lessThan value => exact value.unrefused_asReal.bind fun _ => .ok _
    | _ => cases supported
  | arithmetic a =>
    cases question with
    | equals value => exact unrefused_matchesValue reads (.arithmetic a) value context
    | greaterThan value | lessThan value =>
      exact value.unrefused_asReal.bind fun _ =>
        (a.unrefused_evaluate reads context).bind fun _ => .ok _
    | _ => cases supported
  | set members =>
    cases question with
    | equals value => exact unrefused_matchesValue reads (.set members) value context
    | greaterThan value | lessThan value => exact value.unrefused_asInteger.bind fun _ => .ok _
    | belongsTo value => exact unrefused_someEquals value context members
    | isSubset value =>
      exact value.unrefused_asSet.bind fun items => unrefused_allBelong members context items
    | isTrue => cases supported
  | «variable» v =>
    have hread : Unrefused (Variable.read v context) := reads v context
    cases question with
    | equals value => exact hread.bind fun actual => actual.unrefused_isEqualTo value
    | greaterThan value => exact hread.bind fun actual => actual.unrefused_isGreaterThan value
    | lessThan value => exact hread.bind fun actual => actual.unrefused_isLessThan value
    | belongsTo value => exact hread.bind fun actual => actual.unrefused_holds value
    | isSubset value => exact hread.bind fun actual => actual.unrefused_includes value
    | isTrue => exact hread.bind fun _ => .ok _

/--
A question is refused if and only if the operand lacks the capability for it, whatever the values
and the context are. The refusal names the kind of the operand, the capability and the operation.
-/
theorem answer_eq_unsupportedOperation_iff (reads : ReadsUnrefused V) (operand : Operand V)
    (question : Question) (context : Context) (kind : Kind) (capability : Capability)
    (operation : String) :
    operand.answer question context = .error (.unsupportedOperation kind capability operation) ↔
      ¬ operand.capabilities.contains question.capability ∧ kind = operand.kind ∧
        capability = question.capability ∧ operation = question.name := by
  rw [answer, require]
  split
  · rename_i supported
    rw [ok_bind]
    constructor
    · intro h
      exact absurd h (unrefused_reply reads supported context kind capability operation)
    · rintro ⟨lacking, -⟩
      exact absurd supported lacking
  · rename_i lacking
    rw [error_bind]
    constructor
    · rintro ⟨⟩
      exact ⟨lacking, rfl, rfl, rfl⟩
    · rintro ⟨-, rfl, rfl, rfl⟩
      rfl

end Operand

/-! ## Variables of the library -/

theorem PathVariable.readsUnrefused : ReadsUnrefused PathVariable := by
  intro v context
  change Unrefused (v.read context)
  dsimp only [PathVariable.read]
  split
  · nofun
  · split
    · nofun
    · split
      · nofun
      · exact .ok _

theorem SharedVariable.readsUnrefused : ReadsUnrefused SharedVariable := by
  intro v context
  change Unrefused (v.source.read context)
  cases v.source with
  | path v => exact PathVariable.readsUnrefused v context
  | field name steps capabilities =>
    rw [Source.read]
    cases (context.lookup steps).bind Value.ofDocument? <;> nofun
  | constant name value capabilities => exact .ok value

namespace Operand

/-- A variable that takes part in no comparison. -/
def mute : SharedVariable := { stamp := 0, source := .constant "mute" (.integer 1) .empty }

/-- A set passes over a member that refuses to be compared, and refuses only what no set can do. -/
theorem mute_refused :
    ReadsUnrefused SharedVariable ∧
      (Operand.variable mute).answer (.equals (.integer 1)) .null =
        .error (.unsupportedOperation .variable .equality "equals") ∧
      (Operand.set [.variable mute]).answer .isTrue .null =
        .error (.unsupportedOperation .set .boolean "is_true") ∧
      ∀ kind capability operation,
        (Operand.set [.variable mute]).answer (.belongsTo (.integer 1)) .null ≠
          .error (.unsupportedOperation kind capability operation) := by
  have reads := SharedVariable.readsUnrefused
  refine ⟨reads, ?_, ?_, fun kind capability operation h => ?_⟩
  · rw [answer_eq_unsupportedOperation_iff reads]
    decide
  · rw [answer_eq_unsupportedOperation_iff reads]
    decide
  · rw [answer_eq_unsupportedOperation_iff reads] at h
    exact h.1 rfl

end Operand

end Comparand
