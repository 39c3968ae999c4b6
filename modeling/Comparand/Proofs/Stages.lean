import Comparand.Proofs.Lookups

/-!
# One stage of substitution

A stage remembers the texts that it has put in place of identifiers, and puts them there again. None
of that shows: whatever the tokens are, the ones that a stage selects give way to the texts of their
own variables' values, wherever and however often they stand, and all others are kept. If some
variable has no value, then the leftmost token with such a variable is the failure.
-/
namespace Comparand.Arithmetic
variable {V : Type}

theorem Stage.appliesTo_iff {stage : Stage} {separator token : String} :
    stage.appliesTo separator token ↔
      (stage = .qualified ↔ separator.toList <:+: token.toList) := by
  rw [Stage.appliesTo, ← Text.occursIn_iff]
  cases Text.occursIn separator.toList token.toList <;> simp

/-- The variable of a token that is an identifier of the stage's sort. -/
def Selects (a : Arithmetic V) (stage : Stage) (token : String) (v : V) : Prop :=
  a.bindings.lookup token = some v ∧
    (stage = .qualified ↔ a.separator.toList <:+: token.toList)

variable [Variable V]

/-- The text that a stage puts in place of a token. -/
inductive Replaces (a : Arithmetic V) (stage : Stage) (context : Context) : String → String → Prop
  | kept {token : String} : (∀ v, ¬ a.Selects stage token v) → Replaces a stage context token token
  | plain {token : String} {v : V} {value : Value} : a.Selects stage token v →
      Variable.read v context = .ok value → ¬ value.print.startsWith "-" →
      Replaces a stage context token value.print
  | negative {token : String} {v : V} {value : Value} : a.Selects stage token v →
      Variable.read v context = .ok value → value.print.startsWith "-" →
      Replaces a stage context token ("(" ++ value.print ++ ")")

/-- A token that a stage selects though its variable has no value. -/
def Fails (a : Arithmetic V) (stage : Stage) (context : Context) (token : String)
    (failure : Failure) : Prop :=
  ∃ v, a.Selects stage token v ∧ Variable.read v context = .error failure

variable {a : Arithmetic V} {stage : Stage} {context : Context} {token text : String}

omit [Variable V] in
theorem Selects.unique {v w : V} (hv : a.Selects stage token v) (hw : a.Selects stage token w) :
    v = w :=
  Option.some.inj (hv.1.symm.trans hw.1)

theorem Selects.replaces_iff {v : V} (selected : a.Selects stage token v) :
    a.Replaces stage context token text ↔
      ∃ value, Variable.read v context = .ok value ∧ operandText value = text := by
  constructor
  · intro h
    cases h with
    | kept free => exact absurd selected (free v)
    | plain selected' hread sign =>
      rw [selected'.unique selected] at hread
      exact ⟨_, hread, if_neg sign⟩
    | negative selected' hread sign =>
      rw [selected'.unique selected] at hread
      exact ⟨_, hread, if_pos sign⟩
  · intro ⟨value, hread, htext⟩
    by_cases sign : value.print.startsWith "-"
    · rw [← htext, operandText, if_pos sign]
      exact .negative selected hread sign
    · rw [← htext, operandText, if_neg sign]
      exact .plain selected hread sign

/-- What a stage makes of a token that it selects is up to the variable; all others are kept. -/
theorem replaceIn_cases (a : Arithmetic V) (stage : Stage) (context : Context) (token : String) :
    (∃ v, a.Selects stage token v ∧
      a.replaceIn stage context token = (do return operandText (← Variable.read v context))) ∨
    (∀ v, ¬ a.Selects stage token v) ∧ a.replaceIn stage context token = .ok token := by
  unfold replaceIn replacement
  split
  · rename_i applies
    cases hv : a.bindings.lookup token with
    | none =>
      refine .inr ⟨fun v selected => ?_, rfl⟩
      cases hv.symm.trans selected.1
    | some v => exact .inl ⟨v, ⟨hv, Stage.appliesTo_iff.mp applies⟩, rfl⟩
  · rename_i excluded
    exact .inr ⟨fun v selected => excluded (Stage.appliesTo_iff.mpr selected.2), rfl⟩

theorem replaceIn_eq_ok_iff :
    a.replaceIn stage context token = .ok text ↔ a.Replaces stage context token text := by
  rcases a.replaceIn_cases stage context token with ⟨v, selected, heq⟩ | ⟨free, heq⟩
  · rw [heq, selected.replaces_iff, bind_eq_ok_iff]
    simp only [pure, Except.pure, Except.ok.injEq]
  · rw [heq, Except.ok.injEq]
    constructor
    · intro same
      exact same ▸ .kept free
    · intro h
      cases h with
      | kept => rfl
      | plain selected => exact absurd selected (free _)
      | negative selected => exact absurd selected (free _)

theorem lookupFailure?_eq_some_iff {failure : Failure} :
    a.lookupFailure? stage context token = some failure ↔
      a.Fails stage context token failure := by
  unfold lookupFailure? Fails Selects
  rw [← Stage.appliesTo_iff]
  split
  · rename_i applies
    simp only [Option.bind_eq_some_iff, failure?_eq_some_iff, applies, and_true]
  · rename_i excluded
    simp [excluded]

theorem lookupFailure?_eq_none_iff :
    a.lookupFailure? stage context token = none ↔
      ∀ failure, ¬ a.Fails stage context token failure := by
  rw [Option.eq_none_iff_forall_ne_some]
  exact forall_congr' fun failure => not_congr lookupFailure?_eq_some_iff

/--
A stage puts the texts of their own variables' values in place of the tokens that it selects, and
keeps all others where they are. It fails if and only if it selects a token whose variable has no
value, and as the leftmost one does.
-/
theorem substitute_replaces (a : Arithmetic V) (tokens : List String) (stage : Stage)
    (context : Context) :
    (∀ texts, a.substitute tokens stage context = .ok texts ↔
      texts.length = tokens.length ∧
        List.Forall₂ (a.Replaces stage context) tokens texts) ∧
    ((∃ texts, a.substitute tokens stage context = .ok texts) ↔
      ∀ token ∈ tokens, ∀ failure, ¬ a.Fails stage context token failure) ∧
    ∀ failure, a.substitute tokens stage context = .error failure ↔
      ∃ front token behind, tokens = front ++ token :: behind ∧
        a.Fails stage context token failure ∧
        ∀ earlier ∈ front, ∀ other, ¬ a.Fails stage context earlier other := by
  refine ⟨fun texts => ?_, ?_, fun failure => ?_⟩
  · rw [substitute_eq_mapM, mapM_eq_ok_iff]
    simp only [replaceIn_eq_ok_iff]
    exact ⟨fun h => ⟨h.length_eq.symm, h⟩, fun h => h.2⟩
  · rw [← failure?_eq_none_iff, failure?_substitute, List.findSome?_eq_none_iff]
    simp only [lookupFailure?_eq_none_iff]
  · rw [← failure?_eq_some_iff, failure?_substitute, List.findSome?_eq_some_iff]
    simp only [lookupFailure?_eq_none_iff, lookupFailure?_eq_some_iff]

end Comparand.Arithmetic
