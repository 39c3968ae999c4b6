import Comparand.Formula
import Comparand.Proofs.Scanning

/-!
# Faults of the grammar

A formula is scanned and read as a whole before anything is worked out. So a fault tells how far an
evaluation has come: the faults of the scan and of the reading are faults of the grammar, those of
the arithmetic are not, and an evaluation fails on the grammar exactly if its text spells no tree.
-/
namespace Comparand.Formula

/-- Whether a fault is found before anything is worked out. -/
def Fault.IsGrammatical : Fault → Prop
  | .unexpectedCharacter .. | .unexpectedToken .. | .tooManyTokens .. | .unexpectedEnd
  | .expectedClosing .. | .trailingTokens .. | .literalTooLarge .. => True
  | .divisionByZero | .complexResult .. | .overflow .. => False

/-- The tree that a text spells. -/
def tree (text : String) : Except Fault Expr := do
  Expr.ofTokens (← Token.scan text)

theorem evaluate_eq_bind (text : String) : evaluate text = tree text >>= Expr.value := by
  rw [tree, bind_assoc]
  rfl

theorem Token.isGrammatical_of_head {c : Char} {rest : List Char} {position : Nat} {fault : Fault}
    (h : head c rest position = .error fault) : fault.IsGrammatical := by
  simp only [head] at h
  split at h
  · split at h
    · cases h
    · cases h
      trivial
  · split at h
    · split at h
      · cases h
      · cases h
        trivial
    · cases h
      trivial

theorem Token.isGrammatical_of_scanFrom {text : List Char} {found position skip : Nat}
    {fault : Fault} (h : scanFrom found position skip text = .error fault) :
    fault.IsGrammatical := by
  induction text generalizing found position skip with
  | nil => cases skip <;> cases h
  | cons c rest ih =>
    cases skip with
    | succ skip => exact ih h
    | zero =>
      by_cases hc : Text.isBlank c
      · rw [scanFrom_of_isBlank hc] at h
        exact ih h
      · cases hhead : head c rest position with
        | error fault' =>
          rw [scanFrom_of_head_error hc hhead] at h
          cases h
          exact isGrammatical_of_head hhead
        | ok cut =>
          rw [scanFrom_of_head hc hhead] at h
          split at h
          · cases h
            trivial
          · rcases bind_eq_error_iff.mp h with h | ⟨us, -, h⟩
            · exact ih h
            · cases h

theorem isGrammatical_leftover {stack : List Frame} {fault : Fault} (h : fault.IsGrammatical) :
    (leftover stack fault).IsGrammatical := by
  unfold leftover
  split
  · trivial
  · exact h

theorem State.isGrammatical_of_step {s : State} {token : Placed} {fault : Fault}
    (h : s.step token = .error fault) : fault.IsGrammatical := by
  cases s with
  | wanting stack =>
    simp only [State.step] at h
    split at h <;> cases h
    trivial
  | having operand stack =>
    simp only [State.step] at h
    split at h
    · cases h
    · split at h <;> cases h
      exact isGrammatical_leftover trivial

theorem State.isGrammatical_of_close {s : State} {fault : Fault} (h : s.close = .error fault) :
    fault.IsGrammatical := by
  cases s with
  | wanting stack =>
    cases h
    trivial
  | having operand stack =>
    simp only [State.close] at h
    split at h <;> cases h
    exact isGrammatical_leftover trivial

theorem isGrammatical_of_tree {text : String} {fault : Fault} (h : tree text = .error fault) :
    fault.IsGrammatical := by
  rcases bind_eq_error_iff.mp h with h | ⟨tokens, -, h⟩
  · exact Token.isGrammatical_of_scanFrom h
  · rcases bind_eq_error_iff.mp h with h | ⟨s, -, h⟩
    · obtain ⟨_, _, _, _, -, -, h⟩ := exists_of_foldlM_eq_error h
      exact State.isGrammatical_of_step h
    · exact State.isGrammatical_of_close h

theorem not_isGrammatical_of_power {base exponent : Float} {fault : Fault}
    (h : power base exponent = .error fault) : ¬ fault.IsGrammatical := by
  unfold power at h
  split at h
  · cases h
    exact id
  · split at h
    · cases h
      exact id
    · dsimp only at h
      split at h <;> cases h
      exact id

theorem not_isGrammatical_of_value {e : Expr} {fault : Fault} (h : e.value = .error fault) :
    ¬ fault.IsGrammatical := by
  induction e with
  | literal => cases h
  | negate operand position ih =>
    rcases bind_eq_error_iff.mp h with h | ⟨x, -, h⟩
    · exact ih h
    · cases h
  | binary left operator right position ihl ihr =>
    rcases bind_eq_error_iff.mp h with h | ⟨x, -, h⟩
    · exact ihl h
    · rcases bind_eq_error_iff.mp h with h | ⟨y, -, h⟩
      · exact ihr h
      · cases operator with
        | add | sub | mul => cases h
        | div =>
          simp only [Operator.apply] at h
          split at h <;> cases h
          exact id
        | pow => exact not_isGrammatical_of_power h

/-- An evaluation fails on the grammar exactly if the text spells no tree. -/
theorem exists_isGrammatical_iff (text : String) :
    (∃ fault, evaluate text = .error fault ∧ fault.IsGrammatical) ↔ ¬ ∃ e, tree text = .ok e := by
  rw [evaluate_eq_bind]
  cases h : tree text with
  | error fault => simpa using isGrammatical_of_tree h
  | ok e =>
    simp only [ok_bind, Except.ok.injEq, exists_eq', not_true_eq_false, iff_false, not_exists,
      not_and]
    exact fun fault hvalue => not_isGrammatical_of_value hvalue

end Comparand.Formula
