import Comparand.Calculation
import Comparand.Proofs.Bindings
import Comparand.Proofs.Identifiers
import Comparand.Proofs.Numerals

/-!
# Tokens of a source text

What the scan of a source text accepts is a numeral, a symbol or a well-formed identifier, and where
an expression could be built the identifiers are bound.
-/
namespace Comparand
open Formula (IsNumeral)

namespace TokenTree

def symbols : List (List Char) :=
  [['+'], ['-'], ['*'], ['/'], ['^'], ['*', '*'], ['('], [')']]

def operators : List (List Char) := [['+'], ['-'], ['*'], ['/'], ['^'], ['*', '*']]

/-- What lies between operators, parentheses and blanks and does not begin like a numeral. -/
structure IsWord (word : List Char) : Prop where
  ne_nil : word ≠ []
  endsWord : ∀ c ∈ word, endsWord c = false
  beginsNumerically : Identifier.beginsNumerically word = false

/-- The texts of each lexical class. -/
def Lexeme.Matches : Lexeme → List Char → Prop
  | .numeral, slice => IsNumeral slice
  | .operator, slice => slice ∈ operators
  | .opening, slice => slice = ['(']
  | .closing, slice => slice = [')']
  | .word, slice => IsWord slice

theorem isWord_cons {c : Char} {rest : List Char} (hc : endsWord c = false)
    (begins : Identifier.beginsNumerically [c] = false)
    (hrest : ∀ d ∈ rest, endsWord d = false) : IsWord (c :: rest) where
  ne_nil := List.cons_ne_nil c rest
  endsWord := List.forall_mem_cons.mpr ⟨hc, hrest⟩
  beginsNumerically := begins

theorem matches_of_lexeme? {text : List Char} {kind : Lexeme} {length : Nat}
    (h : lexeme? text = some (kind, length)) : kind.Matches (text.take length) := by
  unfold lexeme? at h
  split at h
  · cases h
    simp [Lexeme.Matches, operators]
  · cases h
    rfl
  · cases h
    rfl
  · rename_i c rest _ _ _
    dsimp only at h
    split at h
    · rename_i numeral
      cases h
      exact Formula.isNumeral_take numeral
    · split at h
      · rename_i operator
        cases h
        rcases operator with rfl | rfl | rfl | rfl | rfl <;> simp [Lexeme.Matches, operators]
      · split at h
        · cases h
        · rename_i word
          cases h
          obtain ⟨hc, begins⟩ : endsWord c = false ∧ Identifier.beginsNumerically [c] = false := by
            simpa using word
          have hprefix := List.takeWhile_prefix (l := rest) (!endsWord ·)
          rw [Nat.add_comm, List.take_succ_cons, ← List.prefix_iff_eq_take.mp hprefix]
          exact isWord_cons hc begins fun d mem => by simpa using List.mem_takeWhile_imp mem
  · cases h

theorem lexeme?_eq_some {text : List Char} {kind : Lexeme} {length : Nat}
    (h : lexeme? text = some (kind, length)) :
    kind = .word ∨ IsNumeral (text.take length) ∨ text.take length ∈ symbols := by
  have hmatches := matches_of_lexeme? h
  cases kind with
  | numeral => exact .inr (.inl hmatches)
  | operator =>
    have hall : ∀ slice ∈ operators, slice ∈ symbols := by decide
    exact .inr (.inr (hall _ hmatches))
  | opening => exact .inr (.inr (by rw [show _ = ['('] from hmatches]; decide))
  | closing => exact .inr (.inr (by rw [show _ = [')'] from hmatches]; decide))
  | word => exact .inl rfl

theorem checkWord_eq_ok {separator word : List Char} {position : Nat}
    (h : checkWord separator word position = .ok ()) : Identifier.isWellFormed separator word := by
  unfold checkWord at h
  split at h
  · assumption
  · split at h <;> cases h

theorem exists_lexeme_of_scanFrom {separator : List Char} {c : Char} {rest : List Char}
    {position : Nat} {opened : List Nat} {tokens : List String} (hc : ¬ Text.isBlank c)
    (h : scanFrom separator position opened 0 (c :: rest) = .ok tokens) :
    ∃ kind length opened' tokens', lexeme? (c :: rest) = some (kind, length) ∧
      (kind = .word → Identifier.isWellFormed separator ((c :: rest).take length)) ∧
      track kind position opened = .ok opened' ∧
      scanFrom separator (position + c.utf8Size) opened' (length - 1) rest = .ok tokens' ∧
      tokens = String.ofList ((c :: rest).take length) :: tokens' := by
  rw [scanFrom, if_neg hc] at h
  split at h
  · cases h
  · rename_i kind length hlexeme
    have hword : kind = .word →
        Identifier.isWellFormed separator ((c :: rest).take length) := by
      intro hkind
      dsimp only at h
      rw [if_pos hkind] at h
      obtain ⟨⟨⟩, hcheck, -⟩ := bind_eq_ok_iff.mp h
      exact checkWord_eq_ok hcheck
    have htail : (do
        let opened ← track kind position opened
        let tokens ← scanFrom separator (position + c.utf8Size) opened (length - 1) rest
        return String.ofList ((c :: rest).take length) :: tokens) = .ok tokens := by
      dsimp only at h
      split at h
      · obtain ⟨-, -, h⟩ := bind_eq_ok_iff.mp h
        exact h
      · exact h
    obtain ⟨opened', htrack, htail⟩ := bind_eq_ok_iff.mp htail
    obtain ⟨tokens', hrest, hpure⟩ := bind_eq_ok_iff.mp htail
    cases hpure
    exact ⟨kind, length, opened', tokens', hlexeme, hword, htrack, hrest, rfl⟩

/-- Every token of a source text is a well-formed identifier, a numeral or a symbol. -/
theorem scanFrom_mem {separator text : List Char} {position skip : Nat} {opened : List Nat}
    {tokens : List String} (h : scanFrom separator position opened skip text = .ok tokens) :
    ∀ token ∈ tokens, Identifier.isWellFormed separator token.toList ∨
      IsNumeral token.toList ∨ token.toList ∈ symbols := by
  induction text generalizing position skip opened tokens with
  | nil =>
    cases skip <;> cases opened <;> cases h <;> simp
  | cons c rest ih =>
    cases skip with
    | succ skip => exact ih h
    | zero =>
      by_cases hc : Text.isBlank c
      · rw [scanFrom, if_pos hc] at h
        exact ih h
      · obtain ⟨kind, length, opened', tokens', hlexeme, hword, -, hrest, rfl⟩ :=
          exists_lexeme_of_scanFrom hc h
        intro token mem
        rcases List.mem_cons.mp mem with rfl | mem
        · rw [String.toList_ofList]
          exact (lexeme?_eq_some hlexeme).imp_left hword
        · exact ih hrest token mem

theorem flatten_of_ofText {source separator : String} {trees : List TokenTree}
    (h : ofText source separator = .ok trees) :
    ∀ token ∈ flatten trees, Identifier.isWellFormed separator.toList token.toList ∨
      IsNumeral token.toList ∨ token.toList ∈ symbols := by
  unfold ofText at h
  cases hscan : scanFrom separator.toList 0 [] 0 source.toList with
  | error fault => rw [hscan] at h; cases h
  | ok tokens =>
    rw [hscan] at h
    cases h
    rw [flatten_nest]
    exact scanFrom_mem hscan

end TokenTree

namespace Arithmetic
variable {V : Type} {ns : Namespace V} {source separator : String} {a : Arithmetic V}

theorem ofTokens_of_ofText (built : ofText source ns separator = .ok a) :
    ∃ trees, TokenTree.ofText source separator = .ok trees ∧
      ofTokens trees ns separator = .ok a := by
  obtain ⟨trees, htrees, htokens⟩ := bind_eq_ok_iff.mp built
  exact ⟨trees, mapError_eq_ok_iff.mp htrees, htokens⟩

theorem ofText_eq_ok_iff :
    ofText source ns separator = .ok a ↔
      ∃ tokens bindings, TokenTree.scanFrom separator.toList 0 [] 0 source.toList = .ok tokens ∧
        separator ≠ "" ∧ resolveTokens ns separator tokens [] = .ok bindings ∧
        a = { tokens := TokenTree.nest tokens, bindings, separator } := by
  rw [ofText, bind_eq_ok_iff]
  simp only [mapError_eq_ok_iff, TokenTree.ofText]
  cases TokenTree.scanFrom separator.toList 0 [] 0 source.toList with
  | error fault => simp [Except.map]
  | ok tokens =>
    simp only [Except.map, Except.ok.injEq, exists_and_left, exists_eq_left', ofTokens]
    by_cases given : separator = ""
    · simp [given]
    · rw [if_neg (by simpa using given), resolveTrees_eq, TokenTree.flatten_nest, bind_eq_ok_iff]
      simp only [given, ne_eq, not_false_eq_true, true_and]
      exact exists_congr fun bindings => and_congr_right fun _ =>
        ⟨fun h => (Except.ok.inj h).symm, fun h => h ▸ rfl⟩

/-- What is not bound in an expression from a source text is a numeral or a symbol. -/
theorem flattened_of_ofText (built : ofText source ns separator = .ok a) :
    ∀ token ∈ a.flattened, (a.bindings.lookup token).isSome ∨ IsNumeral token.toList ∨
      token.toList ∈ TokenTree.symbols := by
  obtain ⟨trees, htrees, htokens⟩ := ofTokens_of_ofText built
  obtain ⟨hflat, hseparator, -, resolved⟩ := resolved_of_ofTokens htokens
  intro token mem
  refine Or.imp_left (fun formed => ?_) (TokenTree.flatten_of_ofText htrees token (hflat ▸ mem))
  rw [← hseparator] at formed
  exact resolved.complete token mem (Identifier.isCandidate_of_isWellFormed formed)

end Arithmetic

end Comparand
