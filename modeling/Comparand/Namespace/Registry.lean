import Comparand.Namespace

/-!
# Registries

A registry holds variables bound to names, and further registries, its scopes. A name is looked up
in exactly the scope it is asked for, never in the scopes around it. Scopes are created on the way
to a binding, and stay.
-/
namespace Comparand

inductive Registry (V : Type) where
  | level (bindings : List (String × V)) (scopes : List (String × Registry V))

namespace Registry
variable {V : Type}

def empty : Registry V := .level [] []

def bindings : Registry V → List (String × V)
  | .level bindings _ => bindings

def scopes : Registry V → List (String × Registry V)
  | .level _ scopes => scopes

/-- Sets the entry of a key, in place of an earlier one. -/
def assign {α : Type} (key : String) (value : α) : List (String × α) → List (String × α)
  | [] => [(key, value)]
  | (k, v) :: rest => if k = key then (key, value) :: rest else (k, v) :: assign key value rest

theorem lookup_assign {α : Type} (key other : String) (value : α) (entries : List (String × α)) :
    (assign key value entries).lookup other =
      if other = key then some value else entries.lookup other := by
  induction entries with
  | nil => simp only [assign, List.lookup_cons, List.lookup_nil]; grind
  | cons entry rest ih => simp only [assign]; grind

/-- Binds a name at this level. -/
def bindHere (name : String) (v : V) : Registry V → Registry V
  | .level bindings scopes => .level (assign name v bindings) scopes

/-- Changes the scope at a path, created if it is not there. -/
def updateAt (f : Registry V → Registry V) : (path : List String) → Registry V → Registry V
  | [], r => f r
  | scope :: path, .level bindings scopes =>
    let inner := (scopes.lookup scope).getD empty
    .level bindings (assign scope (updateAt f path inner) scopes)

/-- Binds a name in the scope at a path, in place of an earlier binding. -/
def bind (path : List String) (name : String) (v : V) (r : Registry V) : Registry V :=
  r.updateAt (bindHere name v) path

/-- Creates the scope at a path, and those around it. -/
def createScope (path : List String) (r : Registry V) : Registry V := r.updateAt id path

/-- The scope at a path. -/
def scopeAt? (r : Registry V) (path : List String) : Option (Registry V) :=
  path.foldlM (fun level scope => level.scopes.lookup scope) r

def hasScope (r : Registry V) (path : List String) : Bool := (r.scopeAt? path).isSome

/-- The variable bound to a name in the scope at a path. -/
def get? (r : Registry V) (path : List String) (name : String) : Option V :=
  (r.scopeAt? path).bind (·.bindings.lookup name)

def toNamespace (r : Registry V) : Namespace V := fun name scopes =>
  (r.get? scopes name).elim (.error (.unresolvedIdentifier name scopes)) .ok

end Registry

end Comparand
