import Comparand.Proofs.SourceCuts
import Comparand.Proofs.WellFormedness

/-!
# Expressions without identifiers

None of the pieces of a formula has to be resolved, unless the separator is made of operators and
parentheses. So a source text that is a formula, with `**` for `^`, spells an expression without
identifiers, and an expression without identifiers has the value of its source text as a formula.
-/
namespace Comparand
open Formula (Token Expr Placed Fault Begins Cuts Spells maxTokens)

theorem Text.exists_mem_of_occursIn {pattern text : List Char} (given : pattern ≠ [])
    (h : Text.occursIn pattern text) : ∃ c ∈ pattern, c ∈ text := by
  obtain ⟨c, rest, rfl⟩ := List.exists_cons_of_ne_nil given
  exact ⟨c, List.mem_cons_self, (Text.occursIn_iff.mp h).subset List.mem_cons_self⟩

namespace Arithmetic

/-- The characters of the operators and the parentheses. -/
def symbolCharacters : List Char := ['+', '-', '*', '/', '^', '(', ')']

theorem letterless_of_symbolCharacters {piece : List Char}
    (symbols : ∀ c ∈ piece, c ∈ symbolCharacters) : piece.any Text.isAlphabetic = false := by
  have hall : symbolCharacters.any Text.isAlphabetic = false := by decide
  rw [List.any_eq_false] at hall ⊢
  intro c hc
  exact hall c (symbols c hc)

theorem isCandidate_of_symbolCharacters {separator : List Char} (given : separator ≠ [])
    (clear : ∀ c ∈ separator, c ∉ symbolCharacters) {piece : List Char}
    (symbols : ∀ c ∈ piece, c ∈ symbolCharacters) :
    ¬ Identifier.isCandidate separator piece := by
  have unqualified : Identifier.hasSeparator separator piece = false := by
    rw [Identifier.hasSeparator, Bool.and_eq_false_iff]
    right
    by_contra occurs
    obtain ⟨c, hc, hpiece⟩ :=
      Text.exists_mem_of_occursIn given (Bool.not_eq_false _ |>.mp occurs)
    exact clear c hc (symbols c hpiece)
  simp [Identifier.isCandidate, Identifier.refers, letterless_of_symbolCharacters symbols,
    unqualified]

theorem isCandidate_of_begins {separator : List Char} (given : separator ≠ [])
    (clear : ∀ c ∈ separator, c ∉ symbolCharacters) {text : List Char} {length : Nat}
    {token : Token} (h : Begins text length token) :
    ¬ Identifier.isCandidate separator (text.take length) := by
  have symbols : ∀ piece : List Char, (∀ c ∈ piece, c ∈ symbolCharacters) →
      ¬ Identifier.isCandidate separator piece :=
    fun _ => isCandidate_of_symbolCharacters given clear
  cases h with
  | numeral found hread =>
    have hbegins := beginsNumerically_of_isNumeral (Formula.isNumeral_take found)
    simp [Identifier.isCandidate, hbegins, hread]
  | @sign c rest token hsign =>
    unfold Formula.sign? at hsign
    split at hsign <;> cases hsign <;> exact symbols _ (by simp [symbolCharacters])
  | star | power | caret => exact symbols _ (by simp [symbolCharacters])

theorem isCandidate_of_cuts {separator : List Char} (given : separator ≠ [])
    (clear : ∀ c ∈ separator, c ∉ symbolCharacters) {text : List Char} {pieces : List String}
    {tokens : List Token} (h : Cuts text pieces tokens) :
    ∀ piece ∈ pieces, ¬ Identifier.isCandidate separator piece.toList := by
  induction h with
  | nil => nofun
  | blank _ _ ih => exact ih
  | piece hbegins _ ih =>
    intro piece mem
    rcases List.mem_cons.mp mem with rfl | mem
    · rw [String.toList_ofList]
      exact isCandidate_of_begins given clear hbegins
    · exact ih piece mem

section Closed
variable {V : Type} {ns : Namespace V} {source separator : String}

theorem spells_map_fst (us : List Placed) : Spells (us.map Prod.fst) us := by
  induction us with
  | nil => exact .nil
  | cons u us ih => exact .same ih

/-- The value of tokens does not depend on where they stand. -/
theorem exists_value_iff (us : List Placed) (y : Except Fault Float) :
    (∃ e, Expr.ofTokens (us.map Prod.fst).zipIdx = .ok e ∧ e.value = y) ↔
      ∃ e, Expr.ofTokens us = .ok e ∧ e.value = y := by
  have hagree := (spells_map_fst us).ofTokens
  rcases hagree.ok_or_error with ⟨e, e', he, he', alike⟩ | ⟨fault, fault', he, he', -⟩
  · simp only [he, he', Except.ok.injEq, exists_eq_left', alike.value_eq]
  · simp only [he, he', reduceCtorEq, false_and, exists_false]

variable [Variable V] {context : Context} {x : Float}

/-- An expression without bindings has the value of its tokens. -/
theorem evaluate_closed_iff {a : Arithmetic V} (built : ofText source ns separator = .ok a)
    (closed : a.bindings = []) :
    a.evaluate context = .ok x ↔
      ∃ tokens, a.flattened.mapM (a.atom fun _ => 0) = .ok tokens ∧
        (∃ e, Expr.ofTokens tokens.zipIdx = .ok e ∧ e.value = .ok x) ∧
        tokens.length ≤ maxTokens := by
  have reads : ∀ identifier v, a.bindings.lookup identifier = some v →
      Variable.read v context = .ok (.real 0) ∧ (0 : Float).isFinite := by
    rw [closed]
    nofun
  have hcount : a.tokenCount (fun _ => 0) = a.flattened.length := by
    have hwidth : a.width (fun _ => 0) = fun _ => 1 := by
      funext token
      simp [width, closed]
    simp [tokenCount, hwidth]
  rw [evaluate_eq_ok_iff built reads, hcount, direct, bind_eq_ok_iff]
  simp only [bind_eq_ok_iff]
  constructor
  · rintro ⟨⟨tokens, htokens, hvalue⟩, small⟩
    rw [(mapM_eq_ok_iff.mp htokens).length_eq] at small
    exact ⟨tokens, htokens, hvalue, small⟩
  · rintro ⟨tokens, htokens, hvalue, small⟩
    rw [← (mapM_eq_ok_iff.mp htokens).length_eq] at small
    exact ⟨⟨tokens, htokens, hvalue⟩, small⟩

theorem evaluate_formula_iff :
    Formula.evaluate (spellPowers source) = .ok x ↔
      ∃ us, Token.scanFrom 0 0 0 (spelled source.toList) = .ok us ∧
        ∃ e, Expr.ofTokens us = .ok e ∧ e.value = .ok x := by
  simp only [Formula.evaluate, Token.scan, toList_spellPowers, bind_eq_ok_iff]

/--
The value of a source text read as a formula, with `**` for `^`, is the value of the expression that
it spells, if that is an expression without identifiers, whatever the namespace and the context are.
-/
theorem evaluate_spellPowers_iff (given : separator ≠ "")
    (clear : ∀ c ∈ separator.toList, c ∉ symbolCharacters) :
    Formula.evaluate (spellPowers source) = .ok x ↔
      ∃ a : Arithmetic V, ofText source ns separator = .ok a ∧ a.bindings = [] ∧
        a.evaluate context = .ok x := by
  rw [evaluate_formula_iff]
  constructor
  · rintro ⟨us, hscan, e, htree, hvalue⟩
    obtain ⟨s, hrun, -⟩ := bind_eq_ok_iff.mp htree
    obtain ⟨pieces, hcuts⟩ :=
      Formula.exists_cuts_of_scanFrom hscan (Formula.starsApart_of_foldlM hrun)
    have balanced : (us.map Prod.fst).foldlM Token.deepen ([] : List Nat).length = some 0 :=
      (Formula.derives_of_ofTokens htree).deepen 0
    have hsource : TokenTree.scanFrom separator.toList 0 [] 0 source.toList = .ok pieces :=
      TokenTree.scanFrom_of_cuts hcuts balanced _ 0
    have hresolve : resolveTokens ns separator pieces [] = .ok [] :=
      resolveTokens_of_not_isCandidate
        (isCandidate_of_cuts (by simpa using given) clear hcuts) []
    have built := ofText_eq_ok_iff.mpr ⟨pieces, [], hsource, given, hresolve, rfl⟩
    refine ⟨_, built, rfl, (evaluate_closed_iff built rfl).mpr ⟨us.map Prod.fst, ?_, ?_, ?_⟩⟩
    · rw [flattened, TokenTree.flatten_nest]
      exact TokenTree.mapM_atom_of_cuts rfl hcuts
    · exact (exists_value_iff us _).mpr ⟨e, htree, hvalue⟩
    · have small := Token.length_le_of_scanFrom hscan (Nat.zero_le maxTokens)
      rwa [Nat.zero_add, ← List.length_map] at small
  · rintro ⟨a, built, closed, hvalue⟩
    obtain ⟨tokens, htokens, ⟨e, htree, hvalue⟩, small⟩ :=
      (evaluate_closed_iff built closed).mp hvalue
    obtain ⟨trees, -, hbuilt⟩ := ofTokens_of_ofText built
    obtain ⟨-, hseparator, -, resolved⟩ := resolved_of_ofTokens hbuilt
    obtain ⟨pieces, bindings, hsource, -, -, ha⟩ := ofText_eq_ok_iff.mp built
    have hflat : a.flattened = pieces := by
      rw [ha, flattened, TokenTree.flatten_nest]
    have free : ∀ piece ∈ pieces, ¬ Identifier.isWellFormed separator.toList piece.toList := by
      intro piece mem formed
      rw [← hseparator] at formed
      have bound := resolved.complete piece (hflat ▸ mem)
        (Identifier.isCandidate_of_isWellFormed formed)
      rw [closed] at bound
      cases bound
    obtain ⟨s, hrun, -⟩ := bind_eq_ok_iff.mp htree
    have apart := Formula.starsApart_of_foldlM hrun
    rw [List.zipIdx_map_fst] at apart
    rw [hflat] at htokens
    have hcuts := TokenTree.cuts_of_scanFrom closed hsource free htokens apart
    have room : 0 + tokens.length ≤ maxTokens := by rwa [Nat.zero_add]
    obtain ⟨us, hscan, rfl⟩ := hcuts.scanFrom room 0
    exact ⟨us, hscan, (exists_value_iff us _).mp ⟨e, htree, hvalue⟩⟩

end Closed

theorem product_evaluates :
    "e" ≠ "" ∧ (∀ c ∈ "e".toList, c ∉ symbolCharacters) ∧
      Formula.evaluate (spellPowers "(1 + 2)*.5e1") = .ok 15 ∧
      ∃ a : Arithmetic PathVariable, ofText "(1 + 2)*.5e1" (Namespace.paths .number) "e" = .ok a ∧
        a.bindings = [] ∧ a.evaluate (.object []) = .ok 15 := by
  have given : "e" ≠ "" := by decide
  have letters : "e".toList = ['e'] := rfl
  have clear : ∀ c ∈ "e".toList, c ∉ symbolCharacters := by
    rw [letters, List.forall_mem_singleton]
    decide
  have hvalue : Formula.evaluate (spellPowers "(1 + 2)*.5e1") = .ok 15 := by decide +kernel
  exact ⟨given, clear, hvalue, (evaluate_spellPowers_iff given clear).mp hvalue⟩

end Arithmetic

end Comparand
