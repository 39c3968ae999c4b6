import Comparand.Document
import Comparand.Value

/-!
# Values in documents

Numbers, truth values and texts of a document are values, and so is an array all of whose items
are: the set of them. Null and objects are no values.
-/
namespace Comparand.Value

mutual

def ofDocument? : Document → Option Value
  | .null => none
  | .bool b => some (.bool b)
  | .integer n =>
    some (match Word.ofInt? n with
      | some word => .integer word
      | none => .real (Binary64.ofInt n))
  | .real x => some (.real x)
  | .text t => some (.text t)
  | .array items => (elementsOf? items).map fun elements => .set (Element.collect elements)
  | .object _ => none

def elementsOf? : List Document → Option (List Element)
  | [] => some []
  | item :: items => do
    let value ← ofDocument? item
    return value.toElement :: (← elementsOf? items)

end

end Comparand.Value
