import Comparand.Number.Shortest
import Comparand.Value

/-!
# Values as text

The text of a value is what text operands compare with and what formulas are filled with. Numbers
are positional, so an integral double reads like the integer. The elements of a set are sorted by
their texts, so the text does not depend on the order of insertion.
-/
namespace Comparand

/-- Texts in order, by their characters from the left. -/
def sortTexts (texts : List String) : List String := texts.mergeSort fun a b => !decide (b < a)

/-- A sequence of texts in braces. -/
def braced (texts : List String) : String := "\x7b" ++ ", ".intercalate texts ++ "\x7d"

namespace Element

mutual

def print : Element → String
  | .number x => Shortest.positional x
  | .bool b => if b then "true" else "false"
  | .text t => t
  | .set items => braced (sortTexts (printAll items))

def printAll : List Element → List String
  | [] => []
  | item :: items => print item :: printAll items

end

end Element

/-- The canonical text of a value. -/
def Value.print : Value → String
  | .integer n => toString n.toInt
  | value => value.toElement.print

end Comparand
