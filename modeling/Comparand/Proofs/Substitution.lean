import Comparand.Proofs.Bindings
import Comparand.Proofs.Identifiers
import Comparand.Proofs.Joining

/-!
# Two stages of substitution against one

What a stage remembers between tokens does not show: each token is replaced on its own. Two stages
in a row are not quite one substitution of all identifiers at once, since the second stage reads
what the first one has written. They differ exactly where the text of a qualified identifier's value
happens to spell a bare identifier of the same expression whose own text is another one.
-/
namespace Comparand.Arithmetic
variable {V : Type} [Variable V]

/-- The text that takes the place of a token: an identifier gives way to its variable's value. -/
def replacement (a : Arithmetic V) (context : Context) (token : String) :
    Except Failure String :=
  match a.bindings.lookup token with
  | some v => do return operandText (← Variable.read v context)
  | none => .ok token

/-- What one stage makes of a token. -/
def replaceIn (a : Arithmetic V) (stage : Stage) (context : Context) (token : String) :
    Except Failure String :=
  if stage.appliesTo a.separator token then a.replacement context token else .ok token

/-- Remembered texts are the ones that would be read again. -/
theorem substituteFrom_eq_mapM (a : Arithmetic V) (stage : Stage) (context : Context)
    (memo : List (String × String)) (tokens : List String)
    (known : ∀ token text, memo.lookup token = some text →
      a.replacement context token = .ok text) :
    substituteFrom a stage context memo tokens = tokens.mapM (a.replaceIn stage context) := by
  induction tokens generalizing memo with
  | nil => rfl
  | cons token tokens ih =>
    rw [substituteFrom, List.mapM_cons]
    cases hv : a.bindings.lookup token with
    | none =>
      have hkeep : a.replaceIn stage context token = .ok token := by
        simp [replaceIn, replacement, hv]
      rw [hkeep, ok_bind, ← ih memo known]
    | some v =>
      by_cases applies : stage.appliesTo a.separator token
      · have hreplace : a.replaceIn stage context token =
            (do return operandText (← Variable.read v context)) := by
          simp [replaceIn, replacement, hv, applies]
        simp only [applies, Bool.not_true, Bool.false_eq_true, if_false]
        cases hm : memo.lookup token with
        | some text =>
          have hknown := known token text hm
          rw [replaceIn, if_pos applies, hknown, ok_bind, ← ih memo known]
        | none =>
          rw [hreplace]
          cases hread : Variable.read v context with
          | error failure => rfl
          | ok value =>
            simp only [ok_bind, pure_bind]
            rw [← ih ((token, operandText value) :: memo)]
            intro other text hother
            rw [List.lookup_cons] at hother
            by_cases same : other = token
            · subst same
              obtain rfl : operandText value = text := by simpa using hother
              simp [replacement, hv, hread, pure, Except.pure]
            · rw [beq_eq_false_iff_ne.mpr same] at hother
              exact known other text hother
      · have hkeep : a.replaceIn stage context token = .ok token := by
          simp [replaceIn, applies]
        simp only [applies, Bool.not_false, if_true]
        rw [hkeep, ok_bind, ← ih memo known]

theorem substitute_eq_mapM (a : Arithmetic V) (tokens : List String) (stage : Stage)
    (context : Context) :
    a.substitute tokens stage context = tokens.mapM (a.replaceIn stage context) :=
  substituteFrom_eq_mapM a stage context [] tokens (by simp)

/-- The formula with all identifiers replaced at once. -/
def simultaneous (a : Arithmetic V) (context : Context) : Except Failure String := do
  let tokens ← a.flattened.mapM (a.replacement context)
  return spellPowers (" ".intercalate tokens)

/-- Whether the variables of an expression all have values. -/
def Readable (a : Arithmetic V) (context : Context) : Prop :=
  ∀ identifier v, a.bindings.lookup identifier = some v →
    ∃ value, Variable.read v context = .ok value

/-- Whether a text is a bare identifier of the expression. -/
def IsBare (a : Arithmetic V) (text : String) : Prop :=
  (a.bindings.lookup text).isSome ∧ Stage.bare.appliesTo a.separator text

/-- The text of a qualified identifier is itself a bare identifier, which has another text. -/
def Captured (a : Arithmetic V) (context : Context) (identifier : String) : Prop :=
  Stage.qualified.appliesTo a.separator identifier ∧
    ∃ text other, a.replacement context identifier = .ok text ∧ a.IsBare text ∧
      a.replacement context text = .ok other ∧ other ≠ text

theorem not_captured {a : Arithmetic V} {context : Context} {identifier text : String}
    (htext : a.replacement context identifier = .ok text) (free : ¬ a.IsBare text) :
    ¬ a.Captured context identifier := by
  rintro ⟨-, found, other, hfound, bare, -⟩
  obtain rfl : text = found := Except.ok.inj (htext.symm.trans hfound)
  exact free bare

theorem Stage.bare_appliesTo (separator text : String) :
    Stage.bare.appliesTo separator text = !Stage.qualified.appliesTo separator text := by
  simp [Stage.appliesTo]

theorem Readable.exists_text {a : Arithmetic V} {context : Context}
    (readable : a.Readable context) :
    ∃ text : String → String, ∀ token, a.replacement context token = .ok (text token) := by
  have hex : ∀ token, ∃ text, a.replacement context token = .ok text := by
    intro token
    unfold replacement
    split
    · rename_i v hv
      obtain ⟨value, hread⟩ := readable token v hv
      exact ⟨operandText value, by rw [hread]; rfl⟩
    · exact ⟨token, rfl⟩
  exact ⟨fun token => (hex token).choose, fun token => (hex token).choose_spec⟩

/-- What both stages make of a token whose replacement, and any other, is given by `text`. -/
def afterStages (a : Arithmetic V) (text : String → String) (token : String) : String :=
  if Stage.qualified.appliesTo a.separator token ∧ Stage.bare.appliesTo a.separator (text token)
  then text (text token) else text token

theorem substituted_eq_afterStages {a : Arithmetic V} {context : Context}
    {text : String → String} (h : ∀ token, a.replacement context token = .ok (text token)) :
    a.substituted context =
      .ok (spellPowers (" ".intercalate (a.flattened.map (a.afterStages text)))) := by
  let one (stage : Stage) (token : String) : String :=
    if stage.appliesTo a.separator token then text token else token
  have hone : ∀ stage token, a.replaceIn stage context token = .ok (one stage token) := by
    intro stage token
    simp only [replaceIn, one, h]
    split <;> rfl
  have htwo : ∀ token, one .bare (one .qualified token) = a.afterStages text token := by
    intro token
    simp only [one, afterStages, Stage.bare_appliesTo]
    by_cases hq : Stage.qualified.appliesTo a.separator token <;> simp [hq]
  simp only [substituted, substitute_eq_mapM]
  rw [mapM_eq_ok_map (fun token _ => hone .qualified token), ok_bind,
    mapM_eq_ok_map (fun token _ => hone .bare token), ok_bind, List.map_map]
  simp only [Function.comp_def, htwo]
  rfl

theorem simultaneous_eq_map {a : Arithmetic V} {context : Context} {text : String → String}
    (h : ∀ token, a.replacement context token = .ok (text token)) :
    a.simultaneous context = .ok (spellPowers (" ".intercalate (a.flattened.map text))) := by
  rw [simultaneous, mapM_eq_ok_map (fun token _ => h token)]
  rfl

/-- What is not captured is the same after two stages as after one. -/
theorem afterStages_eq {a : Arithmetic V} {context : Context} {text : String → String}
    (h : ∀ token, a.replacement context token = .ok (text token)) {token : String}
    (free : ¬ a.Captured context token) : a.afterStages text token = text token := by
  unfold afterStages
  split
  · rename_i applies
    by_cases bound : (a.bindings.lookup (text token)).isSome
    · by_contra other
      exact free ⟨applies.1, text token, _, h token, ⟨bound, applies.2⟩, h _, other⟩
    · have hkeep := h (text token)
      rw [replacement, Option.not_isSome_iff_eq_none.mp bound] at hkeep
      exact (Except.ok.inj hkeep).symm
  · rfl

omit [Variable V] in
theorem IsBare.isWordCharacter {ns : Namespace V} {separator : String} {trees : List TokenTree}
    {a : Arithmetic V} (built : ofTokens trees ns separator = .ok a) {text : String}
    (bare : a.IsBare text) : ∀ c ∈ text.toList, Identifier.isWordCharacter c := by
  obtain ⟨-, -, -, resolved⟩ := resolved_of_ofTokens built
  obtain ⟨v, hv⟩ := Option.isSome_iff_exists.mp bare.1
  have formed := (resolved.sound text v hv).2.2.1
  have unqualified : Text.occursIn a.separator.toList text.toList = false := by
    simpa [Stage.appliesTo] using bare.2
  exact Identifier.isWordCharacter_of_isWellFormed unqualified formed

omit [Variable V] in
theorem IsBare.not_mem {ns : Namespace V} {separator : String} {trees : List TokenTree}
    {a : Arithmetic V} (built : ofTokens trees ns separator = .ok a) {text : String}
    (bare : a.IsBare text) {c : Char} (hc : Identifier.isWordCharacter c = false) :
    c ∉ text.toList :=
  fun hm => Identifier.ne_of_isWordCharacter (bare.isWordCharacter built c hm) hc rfl

theorem afterStages_eq_of_substituted_eq {ns : Namespace V} {separator : String}
    {trees : List TokenTree} {a : Arithmetic V} (built : ofTokens trees ns separator = .ok a)
    {context : Context} {text : String → String}
    (h : ∀ token, a.replacement context token = .ok (text token))
    (same : a.substituted context = a.simultaneous context) {token : String}
    (mem : token ∈ a.flattened) (bare : a.IsBare (text token)) :
    a.afterStages text token = text token := by
  let joinable (f : String → String) : List (List Char) :=
    a.flattened.map fun token => spelled (f token).toList
  rw [substituted_eq_afterStages h, simultaneous_eq_map h] at same
  have hjoined : [' '].intercalate (joinable (a.afterStages text)) =
      [' '].intercalate (joinable text) := by
    have hlists := congrArg String.toList (Except.ok.inj same)
    rwa [toList_spellPowers_intercalate, toList_spellPowers_intercalate, List.map_map,
      List.map_map] at hlists
  have hunspaced : List.Forall₂ Unspaced (joinable (a.afterStages text)) (joinable text) := by
    rw [List.forall₂_map_left_iff, List.forall₂_map_right_iff, List.forall₂_same]
    intro other _
    by_cases captured : a.Captured context other
    · obtain ⟨-, found, _, hfound, hbare, -⟩ := captured
      obtain rfl : text other = found := by simpa [h] using hfound
      right
      rw [spelled_eq_self (hbare.not_mem built (by decide))]
      exact hbare.not_mem built (by decide)
    · left
      rw [afterStages_eq h captured]
  have htoken := List.map_inj_left.mp (eq_of_intercalate_eq hunspaced hjoined) token mem
  have htext : '^' ∉ (text token).toList := bare.not_mem built (by decide)
  rw [spelled_eq_self htext] at htoken
  have hcaret : '^' ∉ (a.afterStages text token).toList := by
    intro hm
    have hstar := star_mem_spelled hm
    rw [htoken] at hstar
    exact bare.not_mem built (by decide) hstar
  rw [spelled_eq_self hcaret] at htoken
  exact String.toList_inj.mp htoken

/--
When all variables have values, both substitutions give a formula, and it is the same formula if and
only if no text of a qualified identifier is captured.
-/
theorem substituted_eq_simultaneous_iff {ns : Namespace V} {separator : String}
    {trees : List TokenTree} {a : Arithmetic V} {context : Context}
    (built : ofTokens trees ns separator = .ok a) (readable : a.Readable context) :
    (∃ formula, a.substituted context = .ok formula) ∧
      (∃ formula, a.simultaneous context = .ok formula) ∧
      (a.substituted context = a.simultaneous context ↔
        ∀ identifier ∈ a.flattened, ¬ a.Captured context identifier) := by
  obtain ⟨text, h⟩ := readable.exists_text
  refine ⟨⟨_, substituted_eq_afterStages h⟩, ⟨_, simultaneous_eq_map h⟩, ?_, ?_⟩
  · rintro same identifier mem ⟨qualified, found, other, hfound, bare, hother, ne⟩
    obtain rfl : text identifier = found := by simpa [h] using hfound
    obtain rfl : text (text identifier) = other := by simpa [h] using hother
    have hkeep := afterStages_eq_of_substituted_eq built h same mem bare
    rw [afterStages, if_pos ⟨qualified, bare.2⟩] at hkeep
    exact ne hkeep
  · intro free
    rw [substituted_eq_afterStages h, simultaneous_eq_map h,
      List.map_congr_left fun token mem => afterStages_eq h (free token mem)]

/-- `ns:x + inf` over fields that hold numbers. -/
def infinities : Arithmetic PathVariable where
  tokens := [.token "ns:x", .token "+", .token "inf"]
  bindings := [("ns:x", { path := ["ns", "x"], kind := .number }),
    ("inf", { path := ["inf"], kind := .number })]
  separator := ":"

/-- The value of `ns:x` is infinite, and a variable goes by the text of that value. -/
def infinitiesContext : Context :=
  .object [("inf", .text "NaN"), ("ns", .object [("x", .text "inf")])]

theorem infinities_built :
    ofTokens infinities.tokens (Namespace.paths .number) ":" = .ok infinities := rfl

theorem infinities_readable : infinities.Readable infinitiesContext := by
  intro identifier v h
  simp only [infinities, List.lookup_cons] at h
  split at h
  · cases h
    exact ⟨.real (Binary64.infinity false), rfl⟩
  · split at h
    · cases h
      exact ⟨.real Binary64.nan, rfl⟩
    · cases h

/-- The second stage replaces what the first one has written for `ns:x`. -/
theorem infinities_captured :
    ofTokens infinities.tokens (Namespace.paths .number) ":" = .ok infinities ∧
      infinities.Readable infinitiesContext ∧
      infinities.substituted infinitiesContext = .ok "NaN + NaN" ∧
      infinities.simultaneous infinitiesContext = .ok "inf + NaN" :=
  ⟨infinities_built, infinities_readable, by decide +kernel, by decide +kernel⟩

theorem infinities_simultaneous_iff :
    ofTokens infinities.tokens (Namespace.paths .number) ":" = .ok infinities ∧
      infinities.Readable infinitiesContext ∧
      (infinities.substituted infinitiesContext = infinities.simultaneous infinitiesContext ↔
        ∀ identifier ∈ infinities.flattened,
          ¬ infinities.Captured infinitiesContext identifier) :=
  ⟨infinities_built, infinities_readable,
    (substituted_eq_simultaneous_iff infinities_built infinities_readable).2.2⟩

end Comparand.Arithmetic
