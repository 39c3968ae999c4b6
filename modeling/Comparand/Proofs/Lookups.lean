import Comparand.Proofs.Environment

/-!
# Lookups

One stage reads the variables of the qualified identifiers from left to right, the next one those of
the bare identifiers. An expression fails with the first of them that has no value, whatever else is
wrong with it; only where all have values does its text matter.
-/
namespace Comparand.Arithmetic
variable {V : Type} [Variable V]

/-- The failure of the variable that a stage reads for a token. -/
def lookupFailure? (a : Arithmetic V) (stage : Stage) (context : Context) (token : String) :
    Option Failure :=
  if stage.appliesTo a.separator token then
    (a.bindings.lookup token).bind fun v => failure? (Variable.read v context)
  else none

/-- The failure of the leftmost identifier of a stage that has no value. -/
def firstFailure? (a : Arithmetic V) (stage : Stage) (context : Context) : Option Failure :=
  a.flattened.findSome? (a.lookupFailure? stage context)

theorem failure?_replaceIn (a : Arithmetic V) (stage : Stage) (context : Context)
    (token : String) :
    failure? (a.replaceIn stage context token) = a.lookupFailure? stage context token := by
  unfold replaceIn lookupFailure? replacement
  split
  · cases a.bindings.lookup token with
    | none => rfl
    | some v =>
      dsimp only [Option.bind_some]
      cases Variable.read v context <;> rfl
  · rfl

theorem failure?_substitute (a : Arithmetic V) (tokens : List String) (stage : Stage)
    (context : Context) :
    failure? (a.substitute tokens stage context) =
      tokens.findSome? (a.lookupFailure? stage context) := by
  rw [substitute_eq_mapM, failure?_mapM]
  simp only [failure?_replaceIn]

theorem findSome?_eq_of_forall₂ {α β γ : Type} {f : α → Option γ} {g : β → Option γ} {xs : List α}
    {ys : List β} (h : List.Forall₂ (fun x y => g y = f x) xs ys) :
    ys.findSome? g = xs.findSome? f := by
  induction h with
  | nil => rfl
  | cons head _ ih => rw [List.findSome?_cons, List.findSome?_cons, head, ih]

variable {ns : Namespace V} {separator : String} {a : Arithmetic V} {context : Context}

/-- The second stage reads the same variables as though the first one had changed nothing. -/
theorem lookupFailure?_of_replaceIn {trees : List TokenTree}
    (built : ofTokens trees ns separator = .ok a)
    (reads : ∀ identifier v value, a.bindings.lookup identifier = some v →
      Variable.read v context = .ok value → ∃ x, value = .real x ∧ x.isFinite)
    {token text : String} (h : a.replaceIn .qualified context token = .ok text) :
    a.lookupFailure? .bare context text = a.lookupFailure? .bare context token := by
  unfold replaceIn at h
  split at h
  · rename_i qualified
    have unread : a.lookupFailure? .bare context token = none :=
      if_neg (by simp [Stage.bare_appliesTo, qualified])
    unfold replacement at h
    split at h
    · rename_i v hv
      obtain ⟨value, hread, hpure⟩ := bind_eq_ok_iff.mp h
      cases hpure
      obtain ⟨x, rfl, finite⟩ := reads token v value hv hread
      have free := not_isBare_operandText built
        (not_isBare_of_isLiteral built (isLiteral_print finite))
      rw [unread, lookupFailure?]
      split
      · rename_i bare
        rw [Option.not_isSome_iff_eq_none.mp fun bound => free ⟨bound, bare⟩]
        rfl
      · rfl
    · cases h
      rfl
  · cases h
    rfl

theorem failure?_substituted {trees : List TokenTree}
    (built : ofTokens trees ns separator = .ok a)
    (reads : ∀ identifier v value, a.bindings.lookup identifier = some v →
      Variable.read v context = .ok value → ∃ x, value = .real x ∧ x.isFinite) :
    failure? (a.substituted context) =
      (a.firstFailure? .qualified context).or (a.firstFailure? .bare context) := by
  rw [firstFailure?, ← failure?_substitute, substituted]
  cases hfirst : a.substitute a.flattened .qualified context with
  | error failure => rfl
  | ok tokens =>
    have hsecond : tokens.findSome? (a.lookupFailure? .bare context) =
        a.firstFailure? .bare context := by
      rw [substitute_eq_mapM, mapM_eq_ok_iff] at hfirst
      exact findSome?_eq_of_forall₂
        (hfirst.imp fun token text h => lookupFailure?_of_replaceIn built reads h)
    rw [ok_bind, ← hsecond, ← failure?_substitute]
    cases a.substitute tokens .bare context <;> rfl

/--
An expression fails as the leftmost qualified identifier that has no value fails, or else as the
leftmost bare one does. If all have values, which are finite doubles, then the formula has a value
or is at fault.
-/
theorem evaluate_lookups {source : String} (built : ofText source ns separator = .ok a)
    (reads : ∀ identifier v value, a.bindings.lookup identifier = some v →
      Variable.read v context = .ok value → ∃ x, value = .real x ∧ x.isFinite) :
    (∀ failure,
      (a.firstFailure? .qualified context).or (a.firstFailure? .bare context) = some failure →
      a.evaluate context = .error failure) ∧
    ((a.firstFailure? .qualified context).or (a.firstFailure? .bare context) = none →
      (∃ x, a.evaluate context = .ok x) ∨
        ∃ formula cause, a.substituted context = .ok formula ∧
          a.evaluate context = .error (.unsafeExpression formula cause)) := by
  obtain ⟨trees, -, htokens⟩ := ofTokens_of_ofText built
  rw [← failure?_substituted htokens reads]
  refine ⟨fun failure h => ?_, fun h => ?_⟩
  · rw [evaluate, failure?_eq_some_iff.mp h, error_bind]
  · obtain ⟨formula, hformula⟩ := failure?_eq_none_iff.mp h
    rw [evaluate, hformula, ok_bind]
    cases Formula.evaluate formula with
    | ok x => exact .inl ⟨x, rfl⟩
    | error cause => exact .inr ⟨formula, cause, rfl, rfl⟩

/-- `b / + (ns:x - ns:y) 2` over fields that hold numbers. -/
def scattered : Arithmetic PathVariable where
  tokens := [.token "b", .token "/", .token "+", .group [.token "(", .token "ns:x", .token "-",
    .token "ns:y", .token ")"], .token "2"]
  bindings := [("b", { path := ["b"], kind := .number }),
    ("ns:x", { path := ["ns", "x"], kind := .number }),
    ("ns:y", { path := ["ns", "y"], kind := .number })]
  separator := ":"

/-- Neither `b` nor `ns:y` has a value. -/
def scatteredContext : Context := .object [("ns", .object [("x", .real 1)])]

theorem scattered_built :
    ofText "b / + (ns:x - ns:y) 2" (Namespace.paths .number) ":" = .ok scattered := by
  have hscan : TokenTree.scanFrom ":".toList 0 [] 0 "b / + (ns:x - ns:y) 2".toList =
      .ok ["b", "/", "+", "(", "ns:x", "-", "ns:y", ")", "2"] := by decide +kernel
  rw [ofText, TokenTree.ofText, hscan]
  rfl

theorem scattered_reads (identifier : String) (v : PathVariable) (value : Value)
    (h : scattered.bindings.lookup identifier = some v)
    (hread : Variable.read v scatteredContext = .ok value) :
    ∃ x, value = .real x ∧ x.isFinite := by
  obtain ⟨front, behind, hbindings, -⟩ := List.lookup_eq_some_iff.mp h
  have mem : (identifier, v) ∈ scattered.bindings := by rw [hbindings]; simp
  simp only [scattered, List.mem_cons, Prod.mk.injEq, List.not_mem_nil, or_false] at mem
  rcases mem with ⟨rfl, rfl⟩ | ⟨rfl, rfl⟩ | ⟨rfl, rfl⟩
  · cases hread
  · exact ⟨1, (Except.ok.inj hread).symm, by decide +kernel⟩
  · cases hread

theorem scattered_lookups :
    ofText "b / + (ns:x - ns:y) 2" (Namespace.paths .number) ":" = .ok scattered ∧
      (∀ identifier v value, scattered.bindings.lookup identifier = some v →
        Variable.read v scatteredContext = .ok value → ∃ x, value = .real x ∧ x.isFinite) ∧
      (scattered.firstFailure? .qualified scatteredContext).or
        (scattered.firstFailure? .bare scatteredContext) = some (.missingContextValue "ns.y") ∧
      scattered.evaluate scatteredContext = .error (.missingContextValue "ns.y") := by
  have hfirst : (scattered.firstFailure? .qualified scatteredContext).or
      (scattered.firstFailure? .bare scatteredContext) = some (.missingContextValue "ns.y") := by
    decide +kernel
  exact ⟨scattered_built, scattered_reads, hfirst,
    (evaluate_lookups scattered_built scattered_reads).1 _ hfirst⟩

end Comparand.Arithmetic
