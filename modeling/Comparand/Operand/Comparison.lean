import Comparand.Operand

/-!
# Comparisons

Each comparison first asks whether the operand has the capability it belongs to, and only then looks
at the value it is given or at the context. Numbers and arithmetic compare with the number that the
value reads as, strings with its text, and a set by its elements; less and greater compare the
number of its members with an integer. A value belongs to a set if some member equals it, where a
member that the value does not fit is passed over, while any other failure is the answer.
-/
namespace Comparand

/-- What can be asked of an operand. -/
inductive Question where
  | equals (value : Value)
  | greaterThan (value : Value)
  | lessThan (value : Value)
  | belongsTo (value : Value)
  | isSubset (value : Value)
  | isTrue

namespace Question

def capability : Question → Capability
  | .equals _ => .equality
  | .greaterThan _ | .lessThan _ => .inequality
  | .belongsTo _ | .isSubset _ => .membership
  | .isTrue => .boolean

def name : Question → String
  | .equals _ => "equals"
  | .greaterThan _ => "greater_than"
  | .lessThan _ => "less_than"
  | .belongsTo _ => "belongs_to"
  | .isSubset _ => "is_subset"
  | .isTrue => "is_true"

end Question

namespace Operand
variable {V : Type}

/-- The number of members of a set, repetitions included. -/
def cardinality (members : List (Operand V)) : Int64 := Word.ofSize members.length

/-- The failure to answer a question outside the capabilities of an operand. -/
def refusal (operand : Operand V) (question : Question) : Failure :=
  .unsupportedOperation operand.kind question.capability question.name

variable [Variable V]

/-- Equality with a value, once it is known that the operand has it. -/
def matchesValue (operand : Operand V) (value : Value) (context : Context) :
    Except Failure Bool :=
  match operand with
  | .string text => .ok (value.print == text)
  | .number x => do return x == (← value.asReal)
  | .arithmetic expression => do
    let expected ← value.asReal
    return (← expression.evaluate context) == expected
  | .set members => do
    let expected ← value.asSet
    return Element.sameSet expected (← resolve members context)
  | .variable v => Variable.equals v value context

def equals (operand : Operand V) (value : Value) (context : Context) : Except Failure Bool := do
  operand.require .equality "equals"
  operand.matchesValue value context

/-- Whether some member equals a value; members that the value does not fit are passed over. -/
def someEquals (value : Value) (context : Context) : List (Operand V) → Except Failure Bool
  | [] => .ok false
  | member :: members =>
    match member.equals value context with
    | .ok true => .ok true
    | .ok false => someEquals value context members
    | .error failure =>
      if failure.isTypeMismatch then someEquals value context members else .error failure

/-- Whether all elements belong to a set; the first that does not settles it. -/
def allBelong (members : List (Operand V)) (context : Context) :
    List Element → Except Failure Bool
  | [] => .ok true
  | item :: items => do
    if ← someEquals (.ofElement item) context members then allBelong members context items
    else return false

/-- The answer to a question that the operand has the capability for. -/
def reply (operand : Operand V) (question : Question) (context : Context) :
    Except Failure Bool :=
  match operand, question with
  | operand, .equals value => operand.matchesValue value context
  | .number x, .greaterThan value => do return decide ((← value.asReal) < x)
  | .number x, .lessThan value => do return decide (x < (← value.asReal))
  | .arithmetic expression, .greaterThan value => do
    let bound ← value.asReal
    return decide (bound < (← expression.evaluate context))
  | .arithmetic expression, .lessThan value => do
    let bound ← value.asReal
    return decide ((← expression.evaluate context) < bound)
  | .set members, .greaterThan value => do return decide ((← value.asInteger) < cardinality members)
  | .set members, .lessThan value => do return decide (cardinality members < (← value.asInteger))
  | .set members, .belongsTo value => someEquals value context members
  | .set members, .isSubset value => do allBelong members context (← value.asSet)
  | .variable v, .greaterThan value => Variable.greaterThan v value context
  | .variable v, .lessThan value => Variable.lessThan v value context
  | .variable v, .belongsTo value => Variable.belongsTo v value context
  | .variable v, .isSubset value => Variable.isSubset v value context
  | .variable v, .isTrue => Variable.isTrue v context
  | operand, question => .error (operand.refusal question)

/-- The answer to a question, if the operand has the capability for it. -/
def answer (operand : Operand V) (question : Question) (context : Context) :
    Except Failure Bool := do
  operand.require question.capability question.name
  operand.reply question context

theorem answer_equals (operand : Operand V) (value : Value) (context : Context) :
    operand.answer (.equals value) context = operand.equals value context := by
  cases operand <;> rfl

end Operand

end Comparand
