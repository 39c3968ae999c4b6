import Comparand.Variable.Path

/-!
# Variables with an identity

Two variables may be described alike and still be different variables. A shared variable carries a
stamp beside its description, and is equal to another one only if both agree; whoever creates
variables gives each a stamp that was not used before. Variables that one namespace creates for one
expression may have one stamp, since their paths differ.

Beside path variables there are fields, which give what the context holds at a path as it is, and
constants.
-/
namespace Comparand

namespace Element

mutual

/-- Equality of elements down to the bits and the order of insertion. -/
def decEq : (a b : Element) → Decidable (a = b)
  | .number x, .number y => decidable_of_iff (x = y) (by simp)
  | .bool x, .bool y => decidable_of_iff (x = y) (by simp)
  | .text x, .text y => decidable_of_iff (x = y) (by simp)
  | .set xs, .set ys =>
    match decEqAll xs ys with
    | .isTrue h => .isTrue (by rw [h])
    | .isFalse h => .isFalse (by simpa using h)
  | .number _, .bool _ | .number _, .text _ | .number _, .set _
  | .bool _, .number _ | .bool _, .text _ | .bool _, .set _
  | .text _, .number _ | .text _, .bool _ | .text _, .set _
  | .set _, .number _ | .set _, .bool _ | .set _, .text _ => .isFalse (by simp)

def decEqAll : (xs ys : List Element) → Decidable (xs = ys)
  | [], [] => .isTrue rfl
  | [], _ :: _ | _ :: _, [] => .isFalse (by simp)
  | x :: xs, y :: ys =>
    match decEq x y, decEqAll xs ys with
    | .isTrue h, .isTrue h' => .isTrue (by rw [h, h'])
    | .isFalse h, _ => .isFalse (by simp [h])
    | _, .isFalse h => .isFalse (by simp [h])

end

instance : DecidableEq Element := decEq

end Element

deriving instance DecidableEq for Value

/-- How a variable is described. -/
inductive Source where
  | path (v : PathVariable)
  | field (name : String) (path : List String) (capabilities : Capabilities)
  | constant (name : String) (value : Value) (capabilities : Capabilities)
  deriving DecidableEq

namespace Source

def name : Source → String
  | .path v => v.name
  | .field name _ _ | .constant name _ _ => name

def capabilities : Source → Capabilities
  | .path v => v.kind.capabilities
  | .field _ _ capabilities | .constant _ _ capabilities => capabilities

def read (source : Source) (context : Context) : Except Failure Value :=
  match source with
  | .path v => v.read context
  | .field _ steps _ =>
    ((context.lookup steps).bind Value.ofDocument?).elim
      (.error (.missingContextValue (dotted steps))) .ok
  | .constant _ value _ => .ok value

end Source

structure SharedVariable where
  stamp : Nat
  source : Source
  deriving DecidableEq

instance : Variable SharedVariable where
  name v := v.source.name
  capabilities v := v.source.capabilities
  read v := v.source.read

end Comparand
