import Comparand.Variable.Path

/-!
# Namespaces

A namespace says which variable a name means inside a chain of scopes, outermost first. The path
namespace reads every name as the context path that it spells, and checks nothing but that no part
of it is empty; whether the path exists shows when the variable is read.
-/
namespace Comparand

/-- From a name and the scopes around it to a variable. -/
abbrev Namespace (V : Type) := (name : String) → (scopes : List String) → Except Failure V

namespace Namespace

def map {V W : Type} (f : V → W) (ns : Namespace V) : Namespace W :=
  fun name scopes => (ns name scopes).map f

/-- Every name is the path it spells. -/
def paths (kind : FieldKind) : Namespace PathVariable := fun name scopes =>
  if name.isEmpty || scopes.any String.isEmpty then .error (.unresolvedIdentifier name scopes)
  else .ok { path := scopes ++ [name], kind }

end Namespace

end Comparand
