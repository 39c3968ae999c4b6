/-!
# Capabilities

Comparisons fall into four categories, and an operand declares which of them it takes part in. A
declaration can be looked at without an operand at hand, for instance to check a rule before any
data exists.
-/
namespace Comparand

/-- A category of comparisons. -/
inductive Capability where
  | equality
  | inequality
  | membership
  /-- To be used as a truth value on its own. -/
  | boolean
  deriving DecidableEq, Repr

namespace Capability

/-- All categories in the order in which they are listed. -/
def all : List Capability := [.equality, .inequality, .membership, .boolean]

def name : Capability → String
  | .equality => "equality"
  | .inequality => "inequality"
  | .membership => "membership"
  | .boolean => "boolean"

def ofName? (text : String) : Option Capability := all.find? (·.name = text)

end Capability

/-- A set of categories. -/
structure Capabilities where
  equality : Bool := false
  inequality : Bool := false
  membership : Bool := false
  boolean : Bool := false
  deriving DecidableEq, Repr

namespace Capabilities

def empty : Capabilities := {}

def contains (s : Capabilities) : Capability → Bool
  | .equality => s.equality
  | .inequality => s.inequality
  | .membership => s.membership
  | .boolean => s.boolean

def insert (s : Capabilities) : Capability → Capabilities
  | .equality => { s with equality := true }
  | .inequality => { s with inequality := true }
  | .membership => { s with membership := true }
  | .boolean => { s with boolean := true }

theorem contains_insert (s : Capabilities) (c d : Capability) :
    (s.insert c).contains d = (decide (c = d) || s.contains d) := by
  cases c <;> cases d <;> simp [insert, contains]

def ofList (cs : List Capability) : Capabilities := cs.foldl insert empty

def toList (s : Capabilities) : List Capability := Capability.all.filter s.contains

def isEmpty (s : Capabilities) : Bool := s = empty

def print (s : Capabilities) : String :=
  "\x7b" ++ ", ".intercalate (s.toList.map Capability.name) ++ "\x7d"

theorem ofList_toList (s : Capabilities) : ofList s.toList = s := by
  rcases s with ⟨_ | _, _ | _, _ | _, _ | _⟩ <;> rfl

end Capabilities

end Comparand
