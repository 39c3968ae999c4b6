import Comparand.Document.Text
import Comparand.Value.OfDocument
import Comparand.Variable

/-!
# Variables read from a path

A path variable reads the context at a fixed path, as one of a few kinds of fields. With a history
`(key, n)` and `n ≠ 0` it reads the same field of the `n`-th entry of the collection `key` that
stands next to it: `stock.price` becomes `stock.data.3.price`.
-/
namespace Comparand

/-- What the context is expected to hold at a path. -/
inductive FieldKind where
  /-- A double; texts that read as numbers are accepted. -/
  | number
  /-- An exact integer; texts that read as integers are accepted. -/
  | integer
  /-- A truth value; what is no truth value is read as one. -/
  | bool
  /-- A text; what is no text is read by its text. -/
  | text
  /-- An array, read as a set. -/
  | set
  deriving DecidableEq, Repr

namespace FieldKind

def capabilities : FieldKind → Capabilities
  | .number | .integer => .ofList [.equality, .inequality]
  | .bool => .ofList [.equality, .boolean]
  | .text => .ofList [.equality]
  | .set => .ofList [.equality, .membership]

def shape : FieldKind → Shape
  | .number => .number
  | .integer => .integer
  | .bool => .boolean
  | .text => .text
  | .set => .array

/-- Reads a value as a field of a kind, if it has such a reading. -/
def read? (kind : FieldKind) (raw : Value) : Option Value :=
  match kind with
  | .number => raw.real?.map .real
  | .integer => raw.integer?.map .integer
  | .bool => some (.bool raw.asBool)
  | .text => some (.text raw.print)
  | .set => match raw with
    | .set items => some (.set items)
    | _ => none

end FieldKind

/-- The steps of a path with points between them. -/
def dotted (path : List String) : String := ".".intercalate path

structure PathVariable where
  path : List String
  kind : FieldKind
  history : Option (String × Nat) := none
  deriving DecidableEq, Repr

namespace PathVariable

def name (v : PathVariable) : String := dotted v.path

/-- The path that is looked up, with the step into the history. -/
def resolvedPath (v : PathVariable) : List String :=
  match v.history, v.path.getLast? with
  | some (key, index), some leaf =>
    if index = 0 then v.path else v.path.dropLast ++ [key, toString index, leaf]
  | _, _ => v.path

def read (v : PathVariable) (context : Context) : Except Failure Value :=
  let path := v.resolvedPath
  match context.lookup path with
  | none => .error (.missingContextValue (dotted path))
  | some document =>
    match Value.ofDocument? document with
    | none => .error (.contextTypeMismatch (dotted path) document.print v.kind.shape)
    | some raw =>
      match v.kind.read? raw with
      | none => .error (.contextTypeMismatch (dotted path) raw.print v.kind.shape)
      | some value => .ok value

instance : Variable PathVariable where
  name := name
  capabilities v := v.kind.capabilities
  read := read

end PathVariable

end Comparand
