import Comparand.Number.Word

/-!
# Values

A value is what an operand denotes under a context, and what it is compared with. Sets hold
elements: numbers of one sort only, so that an integer and the equal double are one element. Two
elements are the same if they are equal as numbers, where not-a-number counts as equal to itself
and zero to negative zero, or equal as truth values or texts, or if each of two sets has an
element for every element of the other.

A set is a list without repetition in the order of insertion. The order means nothing; what a set
keeps of several equal elements is the first one inserted.
-/
namespace Comparand

inductive Element where
  | number (value : Float)
  | bool (value : Bool)
  | text (value : String)
  | set (items : List Element)
  deriving Inhabited

namespace Element

/-- Equality of doubles, except that not-a-number equals itself. -/
def sameNumber (x y : Float) : Bool := x == y || (x.isNaN && y.isNaN)

/-- Whether every row, and every one of `width` columns, of a table holds a `true`. -/
def covers (width : Nat) (rows : List (List Bool)) : Bool :=
  rows.all (·.any id) && (rows.foldl (List.zipWith or) (List.replicate width false)).all id

mutual

/-- Equality of elements. -/
def same : Element → Element → Bool
  | .number x, .number y => sameNumber x y
  | .bool a, .bool b => a == b
  | .text a, .text b => a == b
  | .set xs, .set ys => covers ys.length (sameTable xs ys)
  | _, _ => false

/-- A row for each of `xs` that says which of `ys` it is the same as. -/
def sameTable : List Element → List Element → List (List Bool)
  | [], _ => []
  | x :: xs, ys => ys.map (same x) :: sameTable xs ys

end

/-- Whether a set holds an element. -/
def isIn (x : Element) (xs : List Element) : Bool := xs.any (same x)

/-- Whether a set holds all elements of another. -/
def isSubset (xs ys : List Element) : Bool := xs.all (isIn · ys)

/-- Whether two sets have the same elements. -/
def sameSet (xs ys : List Element) : Bool := same (.set xs) (.set ys)

def insert (xs : List Element) (x : Element) : List Element :=
  if isIn x xs then xs else xs ++ [x]

/-- The set of the elements of a list. -/
def collect (xs : List Element) : List Element := xs.foldl insert []

end Element

inductive Value where
  | integer (value : Int64)
  | real (value : Float)
  | bool (value : Bool)
  | text (value : String)
  | set (items : List Element)
  deriving Inhabited

namespace Value

/-- A value as an element of a set. Integers become the nearest doubles. -/
def toElement : Value → Element
  | .integer n => .number (Binary64.ofInt n.toInt)
  | .real x => .number x
  | .bool b => .bool b
  | .text t => .text t
  | .set items => .set items

def ofElement : Element → Value
  | .number x => .real x
  | .bool b => .bool b
  | .text t => .text t
  | .set items => .set items

/-- The set of the elements that some values are. -/
def collect (values : List Value) : Value := .set (Element.collect (values.map toElement))

/-- Equality of values of one sort; an integer never equals a double. -/
def beq : Value → Value → Bool
  | .integer a, .integer b => a == b
  | .real x, .real y => x == y
  | .bool a, .bool b => a == b
  | .text a, .text b => a == b
  | .set xs, .set ys => Element.sameSet xs ys
  | _, _ => false

instance : BEq Value := ⟨beq⟩

/-- The sort of a value in words. -/
def description : Value → String
  | .integer _ => "an integer"
  | .real _ => "a real"
  | .bool _ => "a boolean"
  | .text _ => "text"
  | .set _ => "a set"

end Value

end Comparand
