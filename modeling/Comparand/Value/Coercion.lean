import Comparand.Failure
import Comparand.Text.Blank
import Comparand.Value.Text

/-!
# Coercions

A comparison does not ask for a value of its own sort; it reads the value it is given as what it
needs. A reading loses nothing: an integer without an equal double in the safe range has no reading
as a number, and a fraction none as an integer. Texts are read after trimming.
-/
namespace Comparand.Value

def coercionFailure (value : Value) (expected : Shape) : Failure :=
  .coercionFailure value.print expected

/-- The number that a value reads as, if any. -/
def real? : Value → Option Float
  | .real x => some x
  | .integer n => Word.toFloat? n
  | .bool b => some (if b then 1 else 0)
  | .text t => Decimal.read? (Text.trim t.toList)
  | .set _ => none

/-- The integer that a value is exactly, if any. -/
def integer? : Value → Option Int64
  | .integer n => some n
  | .real x => Word.ofFloat? x
  | .bool b => some (if b then 1 else 0)
  | .text t => Word.read? (Text.trim t.toList)
  | .set _ => none

def asReal (value : Value) : Except Failure Float :=
  (value.real?).elim (.error (value.coercionFailure .number)) .ok

def asInteger (value : Value) : Except Failure Int64 :=
  (value.integer?).elim (.error (value.coercionFailure .integer)) .ok

def asSet (value : Value) : Except Failure (List Element) :=
  match value with
  | .set items => .ok items
  | _ => .error (value.coercionFailure .set)

/-- Numbers other than zero, `true`, and texts and sets that are not empty are true. -/
def asBool : Value → Bool
  | .integer n => n != 0
  | .real x => !(x == 0)
  | .bool b => b
  | .text t => !t.isEmpty
  | .set items => !items.isEmpty

end Comparand.Value
