import Comparand.Operand
import Comparand.Pairing

/-!
# Equivalence

Two operands are equivalent if they are built alike. No context is looked at. Numbers are compared
as numbers, expressions by their tokens and variables, and a variable is equivalent to itself alone.
Sets are equivalent if their members can be paired off by equivalence, in whatever order; repeated
members count as often as they occur.
-/
namespace Comparand.Operand
variable {V : Type} [DecidableEq V]

mutual

def isEquivalent : Operand V → Operand V → Bool
  | .string a, .string b => a == b
  | .number x, .number y => x == y
  | .arithmetic a, .arithmetic b => a.isEquivalent b
  | .set members, .set others =>
    members.length == others.length &&
      (Pairing.unmatched (fun test other => test other) (equivalenceTests members) others).1.isEmpty
  | .variable v, .variable w => decide (v = w)
  | _, _ => false

/-- For each member the test whether another operand is equivalent to it. -/
def equivalenceTests : List (Operand V) → List (Operand V → Bool)
  | [] => []
  | member :: members => isEquivalent member :: equivalenceTests members

end

theorem equivalenceTests_eq_map (members : List (Operand V)) :
    equivalenceTests members = members.map isEquivalent := by
  induction members with
  | nil => rfl
  | cons member members ih => simp [equivalenceTests, ih]

variable [Variable V]

/-- Why the members of two sets cannot be paired off. -/
def setMismatch? (members others : List (Operand V)) : Option Mismatch :=
  if members.length ≠ others.length then
    some (.cardinalities (print (.set members)) (print (.set others)))
  else
    match Pairing.unmatched isEquivalent members others with
    | ([], _) => none
    | (left, orphans) => some (.members (printAll (left ++ orphans)))

/-- Why two operands are not equivalent. -/
def mismatch? (a b : Operand V) : Option Mismatch :=
  if a.kind ≠ b.kind then some (.kinds a.print b.print a.kind b.kind)
  else match a, b with
    | .set members, .set others => setMismatch? members others
    | a, b => if a.isEquivalent b then none else some (.values a.print b.print)

/-- Succeeds for equivalent operands, and otherwise says how they differ. -/
def checkEquivalence (a b : Operand V) : Except Failure Unit :=
  match a.mismatch? b with
  | none => .ok ()
  | some mismatch => .error (.equivalenceMismatch mismatch)

end Comparand.Operand
