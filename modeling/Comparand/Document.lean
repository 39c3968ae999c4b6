import Comparand.Number.Word

/-!
# Documents

The data that operands are evaluated against is a nested document. Integers that fit a signed or an
unsigned word are kept as they are, all other numbers are doubles. The members of an object are
sorted by key, and a key occurs once.
-/
namespace Comparand

inductive Document where
  | null
  | bool (value : Bool)
  | integer (value : Int)
  | real (value : Float)
  | text (value : String)
  | array (items : List Document)
  | object (members : List (String × Document))
  deriving Inhabited

namespace Document

/-- Sets a member of an object; an earlier one of the same key is replaced. -/
def setMember (key : String) (value : Document) :
    List (String × Document) → List (String × Document)
  | [] => [(key, value)]
  | (k, v) :: rest =>
    if key < k then (key, value) :: (k, v) :: rest
    else if key = k then (key, value) :: rest
    else (k, v) :: setMember key value rest

/-- One step down: a member of an object, or an item of an array by its index. -/
def child? (segment : String) : Document → Option Document
  | .object members => members.lookup segment
  | .array items => (Word.readIndex? segment.toList).bind (items[·]?)
  | _ => none

/-- Follows a path from the root; there is nothing behind a step that does not exist. -/
def lookup (document : Document) (path : List String) : Option Document :=
  path.foldlM (fun node segment => node.child? segment) document

end Document

/-- What operands read. -/
abbrev Context := Document

end Comparand
