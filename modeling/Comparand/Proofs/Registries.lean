import Comparand.Namespace.Registry

/-!
# Registries as flat maps

A registry is a tree, but it answers like a flat map from a scope path and a name to a variable. A
call changes the tree along one path. What it puts at the end of the path is all that a lookup can
see of it, and that lookup has to ask for exactly this path; besides, the scopes on the way are there
from then on. So after any calls a name resolves to the variable that was bound last at exactly the
scope path and name that are asked for, and a scope is there if some call passed through it. Nothing
is said of a registry that was not made by calls from the empty one.
-/
namespace Comparand.Registry
variable {V : Type}

/-! ## One level -/

theorem get?_nil (r : Registry V) (name : String) : r.get? [] name = r.bindings.lookup name := rfl

theorem get?_cons (r : Registry V) (scope : String) (path : List String) (name : String) :
    r.get? (scope :: path) name = (r.scopes.lookup scope).bind (·.get? path name) := by
  rw [get?, scopeAt?, List.foldlM_cons, Option.bind_eq_bind, Option.bind_assoc]
  rfl

@[simp] theorem hasScope_nil (r : Registry V) : r.hasScope [] := rfl

theorem hasScope_cons (r : Registry V) (scope : String) (path : List String) :
    r.hasScope (scope :: path) ↔ ∃ inner, r.scopes.lookup scope = some inner ∧
      inner.hasScope path := by
  rw [hasScope, scopeAt?, List.foldlM_cons]
  cases r.scopes.lookup scope <;> simp [hasScope, scopeAt?]

theorem get?_empty (path : List String) (name : String) :
    (empty : Registry V).get? path name = none := by
  cases path with
  | nil => rfl
  | cons scope path => rw [get?_cons, empty, scopes, List.lookup_nil, Option.bind_none]

theorem hasScope_empty {path : List String} : (empty : Registry V).hasScope path ↔ path = [] := by
  cases path with
  | nil => simp
  | cons scope path => simp [hasScope_cons, empty, scopes]

theorem bindings_updateAt_cons (f : Registry V → Registry V) (scope : String) (path : List String)
    (r : Registry V) : (r.updateAt f (scope :: path)).bindings = r.bindings := by
  cases r
  rfl

/-- A change inside a scope is seen in this scope only, which is there from then on. -/
theorem lookup_scopes_updateAt_cons (f : Registry V → Registry V) (scope other : String)
    (path : List String) (r : Registry V) :
    (r.updateAt f (scope :: path)).scopes.lookup other =
      if other = scope then some (((r.scopes.lookup scope).getD empty).updateAt f path)
      else r.scopes.lookup other := by
  cases r with
  | level bindings inner => exact lookup_assign scope other _ inner

theorem toNamespace_eq_ok_iff {r : Registry V} {name : String} {path : List String} {v : V} :
    r.toNamespace name path = .ok v ↔ r.get? path name = some v := by
  rw [toNamespace]
  cases r.get? path name <;> simp

theorem toNamespace_eq_error_iff {r : Registry V} {name : String} {path : List String}
    {failure : Failure} :
    r.toNamespace name path = .error failure ↔
      failure = .unresolvedIdentifier name path ∧ r.get? path name = none := by
  rw [toNamespace]
  cases r.get? path name <;> simp [eq_comm]

/-! ## One call -/

section Update
variable {f : Registry V → Registry V}

/-- What is done to a name in one scope is seen by lookups of the name in that scope alone. -/
theorem get?_updateAt {name : String} (change : Option V → Option V)
    (keeps : ∀ r, (f r).scopes = r.scopes)
    (effect : ∀ r, (f r).bindings.lookup name = change (r.bindings.lookup name))
    (path other : List String) (r : Registry V) :
    (r.updateAt f path).get? other name =
      if other = path then change (r.get? path name) else r.get? other name := by
  induction path generalizing r other with
  | nil =>
    cases other with
    | nil => exact effect r
    | cons scope other => rw [updateAt, get?_cons, get?_cons, keeps, if_neg (by simp)]
  | cons scope path ih =>
    cases other with
    | nil => rw [get?_nil, get?_nil, bindings_updateAt_cons, if_neg (by simp)]
    | cons scope' other =>
      rw [get?_cons, get?_cons, get?_cons, lookup_scopes_updateAt_cons]
      by_cases hscope : scope' = scope
      · subst hscope
        rw [if_pos rfl, Option.bind_some, ih]
        cases r.scopes.lookup scope' with
        | some inner => simp
        | none => simp [get?_empty]
      · rw [if_neg hscope, if_neg (by simp [hscope])]

/-- A change at a path makes the scopes on the way, and no others. -/
theorem hasScope_updateAt (keeps : ∀ r, (f r).scopes = r.scopes) (path other : List String)
    (r : Registry V) :
    (r.updateAt f path).hasScope other ↔ r.hasScope other ∨ other <+: path := by
  induction path generalizing r other with
  | nil =>
    cases other with
    | nil => simp
    | cons scope other => rw [updateAt, hasScope_cons, hasScope_cons, keeps]; simp
  | cons scope path ih =>
    cases other with
    | nil => simp
    | cons scope' other =>
      rw [hasScope_cons, hasScope_cons, lookup_scopes_updateAt_cons, List.cons_prefix_cons]
      by_cases hscope : scope' = scope
      · subst hscope
        simp only [if_true, Option.some.injEq, exists_eq_left', true_and, ih]
        cases r.scopes.lookup scope' with
        | some inner => simp
        | none => simp +contextual [hasScope_empty]
      · simp [hscope]

end Update

theorem get?_bind (path other : List String) (name name' : String) (v : V) (r : Registry V) :
    (r.bind path name v).get? other name' =
      if other = path ∧ name' = name then some v else r.get? other name' := by
  have keeps : ∀ r : Registry V, (bindHere name v r).scopes = r.scopes := by
    intro r
    cases r
    rfl
  have effect : ∀ r : Registry V, (bindHere name v r).bindings.lookup name' =
      if name' = name then some v else r.bindings.lookup name' := by
    intro r
    cases r with
    | level bindings scopes => exact lookup_assign name name' v bindings
  rw [bind, get?_updateAt (fun bound => if name' = name then some v else bound) keeps effect]
  by_cases hpath : other = path
  · simp only [hpath, if_true, true_and]
  · simp only [hpath, if_false, false_and]

theorem hasScope_bind (path other : List String) (name : String) (v : V) (r : Registry V) :
    (r.bind path name v).hasScope other ↔ r.hasScope other ∨ other <+: path := by
  apply hasScope_updateAt
  intro r
  cases r
  rfl

theorem get?_createScope (path other : List String) (name : String) (r : Registry V) :
    (r.createScope path).get? other name = r.get? other name := by
  have keeps : ∀ r : Registry V, (id r).scopes = r.scopes := fun _ => rfl
  rw [createScope, get?_updateAt id keeps fun _ => rfl]
  split
  · rename_i hpath
    rw [hpath, id]
  · rfl

theorem hasScope_createScope (path other : List String) (r : Registry V) :
    (r.createScope path).hasScope other ↔ r.hasScope other ∨ other <+: path :=
  hasScope_updateAt (fun _ => rfl) path other r

/-! ## Any number of calls -/

/-- What changes a registry. Each call goes down a path of scopes, which it makes where needed. -/
inductive Call (V : Type) where
  | bind (path : List String) (name : String) (v : V)
  | createScope (path : List String)

namespace Call

/-- The scopes that a call passes through, outermost first. -/
def path : Call V → List String
  | .bind path _ _ | .createScope path => path

def apply (r : Registry V) : Call V → Registry V
  | .bind path name v => r.bind path name v
  | .createScope path => r.createScope path

theorem get?_apply_bind (r : Registry V) (path : List String) (name : String) (v : V) :
    (apply r (.bind path name v)).get? path name = some v := by
  rw [apply, get?_bind, if_pos ⟨rfl, rfl⟩]

theorem get?_apply_of_ne (r : Registry V) {call : Call V} {path : List String} {name : String}
    (other : ∀ v, call ≠ .bind path name v) :
    (call.apply r).get? path name = r.get? path name := by
  cases call with
  | createScope path' => exact get?_createScope path' path name r
  | bind path' name' v =>
    rw [apply, get?_bind, if_neg]
    rintro ⟨rfl, rfl⟩
    exact other v rfl

theorem hasScope_apply (r : Registry V) (call : Call V) (path : List String) :
    (call.apply r).hasScope path ↔ r.hasScope path ∨ path <+: call.path := by
  cases call with
  | bind path' name v => exact hasScope_bind path' path name v r
  | createScope path' => exact hasScope_createScope path' path r

end Call

theorem get?_foldl_of_unbound {calls : List (Call V)} {path : List String} {name : String}
    (unbound : ∀ v, .bind path name v ∉ calls) (r : Registry V) :
    (calls.foldl Call.apply r).get? path name = r.get? path name := by
  induction calls generalizing r with
  | nil => rfl
  | cons call calls ih =>
    have other : ∀ v, call ≠ .bind path name v := fun v h => unbound v (h ▸ List.mem_cons_self)
    rw [List.foldl_cons, ih fun v mem => unbound v (List.mem_cons_of_mem call mem),
      Call.get?_apply_of_ne r other]

theorem hasScope_foldl (calls : List (Call V)) (path : List String) (r : Registry V) :
    (calls.foldl Call.apply r).hasScope path ↔
      r.hasScope path ∨ ∃ call ∈ calls, path <+: call.path := by
  induction calls generalizing r with
  | nil => simp
  | cons call calls ih =>
    rw [List.foldl_cons, ih, Call.hasScope_apply, or_assoc]
    simp only [List.mem_cons, exists_eq_or_imp]

/-- The registry that calls make of an empty one. -/
def ofCalls (calls : List (Call V)) : Registry V := calls.foldl Call.apply empty

/-- The last call that binds the name in the scope at the path binds it to `v`. -/
def BindsLast (calls : List (Call V)) (path : List String) (name : String) (v : V) : Prop :=
  ∃ before after, calls = before ++ .bind path name v :: after ∧
    ∀ w, .bind path name w ∉ after

theorem exists_bindsLast {calls : List (Call V)} {path : List String} {name : String} {v : V}
    (mem : .bind path name v ∈ calls) : ∃ w, BindsLast calls path name w := by
  induction calls generalizing v with
  | nil => cases mem
  | cons call calls ih =>
    by_cases later : ∃ w, .bind path name w ∈ calls
    · obtain ⟨w, hw⟩ := later
      obtain ⟨u, before, after, rfl, unbound⟩ := ih hw
      exact ⟨u, call :: before, after, rfl, unbound⟩
    · rcases List.mem_cons.mp mem with rfl | mem
      · exact ⟨v, [], calls, rfl, fun w hw => later ⟨w, hw⟩⟩
      · exact absurd ⟨v, mem⟩ later

theorem BindsLast.get?_ofCalls {calls : List (Call V)} {path : List String} {name : String} {v : V}
    (h : BindsLast calls path name v) : (ofCalls calls).get? path name = some v := by
  obtain ⟨before, after, rfl, unbound⟩ := h
  rw [ofCalls, List.foldl_append, List.foldl_cons, get?_foldl_of_unbound unbound,
    Call.get?_apply_bind]

theorem get?_ofCalls_eq_none_iff {calls : List (Call V)} {path : List String} {name : String} :
    (ofCalls calls).get? path name = none ↔ ∀ v, .bind path name v ∉ calls := by
  constructor
  · intro hnone v mem
    obtain ⟨w, hw⟩ := exists_bindsLast mem
    cases hnone.symm.trans hw.get?_ofCalls
  · intro unbound
    rw [ofCalls, get?_foldl_of_unbound unbound, get?_empty]

theorem get?_ofCalls_eq_some_iff {calls : List (Call V)} {path : List String} {name : String}
    {v : V} : (ofCalls calls).get? path name = some v ↔ BindsLast calls path name v := by
  refine ⟨fun h => ?_, BindsLast.get?_ofCalls⟩
  by_cases bound : ∃ w, .bind path name w ∈ calls
  · obtain ⟨w, mem⟩ := bound
    obtain ⟨u, hu⟩ := exists_bindsLast mem
    cases h.symm.trans hu.get?_ofCalls
    exact hu
  · rw [get?_ofCalls_eq_none_iff.mpr fun w mem => bound ⟨w, mem⟩] at h
    cases h

/--
After any calls a name resolves to the variable bound last at exactly the scope path and name asked
for, and to nothing if there was no such binding, whatever is bound in other scopes. The scope at a
path is there if it is the registry itself or some call passed through it.
-/
theorem toNamespace_ofCalls (calls : List (Call V)) (name : String) (path : List String) :
    (∀ v, (ofCalls calls).toNamespace name path = .ok v ↔ BindsLast calls path name v) ∧
    (∀ failure, (ofCalls calls).toNamespace name path = .error failure ↔
      failure = .unresolvedIdentifier name path ∧ ∀ v, .bind path name v ∉ calls) ∧
    ((ofCalls calls).hasScope path ↔ path = [] ∨ ∃ call ∈ calls, path <+: call.path) := by
  refine ⟨fun v => ?_, fun failure => ?_, ?_⟩
  · rw [toNamespace_eq_ok_iff, get?_ofCalls_eq_some_iff]
  · rw [toNamespace_eq_error_iff, get?_ofCalls_eq_none_iff]
  · rw [ofCalls, hasScope_foldl, hasScope_empty]

/-- A binding is not seen in a scope inside its own, even if that is called like the name. -/
example (v w : V) :
    (ofCalls [.bind [] "x" v, .bind ["ns"] "x" w, .createScope ["ns", "x"]]).toNamespace
      "x" ["ns", "x"] = .error (.unresolvedIdentifier "x" ["ns", "x"]) := by
  rfl

end Comparand.Registry
