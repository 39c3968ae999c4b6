import Comparand.Document
import Comparand.Value.Coercion

/-!
# Variables

A variable is an operand whose value lies in the context. Whoever calls the library may bring
variables of their own: a type of variables has to say how each is named, which comparisons it
takes part in, and how it is read. The comparisons themselves follow from the value that is read:
texts are compared as texts, truth values as truth values, sets by their elements, and everything
else as numbers. Nothing is remembered between two readings.
-/
namespace Comparand

class Variable (V : Type) where
  name : V → String
  capabilities : V → Capabilities
  read : V → Context → Except Failure Value

namespace Value

/-- Whether a value that was read is equal to another one, by the sort of the value read. -/
def isEqualTo (actual value : Value) : Except Failure Bool :=
  match actual with
  | .text t => .ok (t == value.print)
  | .bool b => .ok (b == value.asBool)
  | .set xs => do return Element.sameSet xs (← value.asSet)
  | actual => do
    let x ← actual.asReal
    return x == (← value.asReal)

def isGreaterThan (actual value : Value) : Except Failure Bool := do
  let x ← actual.asReal
  let y ← value.asReal
  return decide (y < x)

def isLessThan (actual value : Value) : Except Failure Bool := do
  let x ← actual.asReal
  let y ← value.asReal
  return decide (x < y)

/-- Whether a set that was read holds a value. -/
def holds (actual value : Value) : Except Failure Bool := do
  return value.toElement.isIn (← actual.asSet)

/-- Whether a set that was read holds all elements of another one. -/
def includes (actual value : Value) : Except Failure Bool := do
  let xs ← value.asSet
  return Element.isSubset xs (← actual.asSet)

end Value

namespace Variable
variable {V : Type} [Variable V]

def equals (v : V) (value : Value) (context : Context) : Except Failure Bool := do
  (← read v context).isEqualTo value

def greaterThan (v : V) (value : Value) (context : Context) : Except Failure Bool := do
  (← read v context).isGreaterThan value

def lessThan (v : V) (value : Value) (context : Context) : Except Failure Bool := do
  (← read v context).isLessThan value

def belongsTo (v : V) (value : Value) (context : Context) : Except Failure Bool := do
  (← read v context).holds value

def isSubset (v : V) (value : Value) (context : Context) : Except Failure Bool := do
  (← read v context).includes value

def isTrue (v : V) (context : Context) : Except Failure Bool := do
  return (← read v context).asBool

end Variable

end Comparand
